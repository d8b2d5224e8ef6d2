import ApiAtlas.Proofs.Json.Token
set_option autoImplicit false

/-!
# Json: values are read as they were written

The pretty form of a value whose numbers are exact is read back into the draft of that value, in
which nothing is malformed.  The reader is given fuel by the length of the text, of which every
value and every separator takes its share.
-/

namespace ApiAtlas.Json

mutual

/-- Every number in the value is exact. -/
def Exact : Json → Prop
  | .number n => n.Exact
  | .array items => ExactItems items
  | .object members => ExactMembers members
  | _ => True

/-- Every number in the items is exact. -/
def ExactItems : List Json → Prop
  | [] => True
  | v :: rest => v.Exact ∧ ExactItems rest

/-- Every number in the members is exact. -/
def ExactMembers : List (String × Json) → Prop
  | [] => True
  | (_, v) :: rest => v.Exact ∧ ExactMembers rest

end

mutual

/-- Whether every number in the value is exact. -/
def decideExact : ∀ v : Json, Decidable v.Exact
  | .null => isTrue trivial
  | .bool _ => isTrue trivial
  | .text _ => isTrue trivial
  | .number n => inferInstanceAs (Decidable n.Exact)
  | .array items => decideExactItems items
  | .object members => decideExactMembers members

/-- Whether every number in the items is exact. -/
def decideExactItems : ∀ items : List Json, Decidable (ExactItems items)
  | [] => isTrue trivial
  | v :: rest => @instDecidableAnd _ _ (decideExact v) (decideExactItems rest)

/-- Whether every number in the members is exact. -/
def decideExactMembers : ∀ members : List (String × Json), Decidable (ExactMembers members)
  | [] => isTrue trivial
  | (_, v) :: rest => @instDecidableAnd _ _ (decideExact v) (decideExactMembers rest)

end

instance (v : Json) : Decidable v.Exact := decideExact v

theorem exact_array {items : List Json} : (Json.array items).Exact ↔ ∀ v ∈ items, v.Exact := by
  change ExactItems items ↔ _
  induction items with
  | nil => simp [ExactItems]
  | cons v items ih => simp [ExactItems, ih]

theorem exact_object {members : List (String × Json)} :
    (Json.object members).Exact ↔ ∀ e ∈ members, e.2.Exact := by
  change ExactMembers members ↔ _
  induction members with
  | nil => simp [ExactMembers]
  | cons e members ih => simp [ExactMembers, ih]

/-! ## Blanks -/

/-- Every character is a blank of JSON. -/
def Spaces (text : List Char) : Prop := ∀ c ∈ text, Draft.isSpace c = true

instance (text : List Char) : Decidable (Spaces text) := List.decidableBAll _ text

theorem Spaces.deeper {indent : String} (h : Spaces indent.toList) :
    Spaces (indent ++ "  ").toList := by
  intro c hc
  rw [String.toList_append, List.mem_append] at hc
  rcases hc with hc | hc
  · exact h c hc
  · have htwo : Spaces "  ".toList := by decide
    exact htwo c hc

theorem Spaces.newline {indent : List Char} (h : Spaces indent) : Spaces ('\n' :: indent) :=
  List.forall_mem_cons.mpr ⟨by decide, h⟩

theorem readValue_spaces {b : List Char} (hb : Spaces b) (fuel : Nat) (text : List Char) :
    Draft.readValue fuel (b ++ text) = Draft.readValue fuel text := by
  cases fuel with
  | zero => rfl
  | succ fuel =>
      unfold Draft.readValue
      rw [List.dropWhile_append_of_pos hb]

theorem readItems_spaces {b : List Char} (hb : Spaces b) (fuel : Nat) (first : Bool)
    (text : List Char) :
    Draft.readItems fuel first (b ++ text) = Draft.readItems fuel first text := by
  cases fuel with
  | zero => rfl
  | succ fuel =>
      unfold Draft.readItems
      rw [List.dropWhile_append_of_pos hb]

theorem readMembers_spaces {b : List Char} (hb : Spaces b) (fuel : Nat) (first : Bool)
    (text : List Char) :
    Draft.readMembers fuel first (b ++ text) = Draft.readMembers fuel first text := by
  cases fuel with
  | zero => rfl
  | succ fuel =>
      unfold Draft.readMembers
      rw [List.dropWhile_append_of_pos hb]

/-! ## Where a value starts -/

/-- The first character of a value: it is no blank, and it closes no array. -/
def Starts (text : List Char) : Prop :=
  ∃ c tail, text = c :: tail ∧ Draft.isSpace c = false ∧ c ≠ ']'

/-- A sign or a digit is no blank. -/
theorem not_isSpace_of_number {c : Char} (hc : c = '-' ∨ c.isDigit = true) :
    Draft.isSpace c = false := by
  rw [← Bool.not_eq_true]
  intro hspace
  simp only [Draft.isSpace, Bool.or_eq_true, beq_iff_eq] at hspace
  rcases hspace with ((rfl | rfl) | rfl) | rfl <;> exact absurd hc (by decide)

theorem starts_pretty {v : Json} (hexact : v.Exact) (indent : String) :
    Starts (prettyAt indent v).toList := by
  have hblock : ∀ {opening closing : String} {lines : List String} {c : Char},
      opening.toList = [c] → Draft.isSpace c = false → c ≠ ']' →
        Starts (block opening closing indent lines).toList := by
    intro opening closing lines c hopening hspace hclose
    unfold block
    split <;> simp [Starts, hopening, hspace, hclose]
  cases v with
  | null => exact ⟨'n', "ull".toList, by rw [prettyAt]; rfl, by decide, by decide⟩
  | bool b =>
      cases b with
      | true => exact ⟨'t', "rue".toList, by rw [prettyAt]; rfl, by decide, by decide⟩
      | false => exact ⟨'f', "alse".toList, by rw [prettyAt]; rfl, by decide, by decide⟩
  | text t => exact ⟨'"', _, toList_quote t, by decide, by decide⟩
  | array items => exact hblock (c := '[') rfl (by decide) (by decide)
  | object members => exact hblock (c := '\x7b') rfl (by decide) (by decide)
  | number n =>
      obtain ⟨c, tail, htext, hc⟩ := exists_render (n := n) hexact
      refine ⟨c, tail, htext, not_isSpace_of_number hc, ?_⟩
      rintro rfl
      exact absurd hc (by decide)

/-! ## Single steps of the reader -/

theorem readValue_text {text after : List Char} {t : String} (fuel : Nat)
    (h : Draft.readText [] true none text = some (some t, after)) :
    Draft.readValue (fuel + 1) ('"' :: text) = (.text (some t), some after) := by
  have hdrop : ('"' :: text).dropWhile Draft.isSpace = '"' :: text := rfl
  simp only [Draft.readValue, hdrop, h]

theorem readValue_array (fuel : Nat) (text : List Char) :
    Draft.readValue (fuel + 1) ('[' :: text) =
      (.array (Draft.readItems fuel true text).1 (Draft.readItems fuel true text).2.isSome,
        (Draft.readItems fuel true text).2) := rfl

theorem readValue_object (fuel : Nat) (text : List Char) :
    Draft.readValue (fuel + 1) ('\x7b' :: text) =
      (.object (Draft.readMembers fuel true text).1 (Draft.readMembers fuel true text).2.isSome,
        (Draft.readMembers fuel true text).2) := rfl

/-- A text that starts like a number is read as one. -/
theorem readValue_number {c : Char} {text after : List Char} {n : Option Number}
    (hc : c = '-' ∨ c.isDigit = true) (fuel : Nat)
    (h : Draft.readNumber (c :: text) = some (n, after)) :
    Draft.readValue (fuel + 1) (c :: text) = (.number n, some after) := by
  have hspace := not_isSpace_of_number hc
  have hother : ∀ d ∈ ['[', '\x7b', '"', 'n', 't', 'f'], c ≠ d := by
    rintro d hd rfl
    have hall : ['[', '\x7b', '"', 'n', 't', 'f'].all
        (fun d => decide (¬ (d = '-' ∨ d.isDigit = true))) = true := by decide
    exact of_decide_eq_true (List.all_eq_true.mp hall c hd) hc
  have hdrop : (c :: text).dropWhile Draft.isSpace = c :: text :=
    List.dropWhile_cons_of_neg (by simp [hspace])
  unfold Draft.readValue
  rw [hdrop]
  split <;> simp_all

theorem dropWhile_of_starts {text : List Char} (h : Starts text) :
    text.dropWhile Draft.isSpace = text := by
  obtain ⟨c, tail, rfl, hspace, -⟩ := h
  exact List.dropWhile_cons_of_neg (by simp [hspace])

theorem ne_of_starts {text rest : List Char} (h : Starts text) : text ≠ ']' :: rest := by
  rintro rfl
  obtain ⟨c, tail, htext, -, hclose⟩ := h
  exact hclose (List.cons.inj htext).1.symm

/-- An item with a comma behind it. -/
theorem readItems_more {fuel : Nat} {first : Bool} {text more : List Char} {d : Draft}
    (hstarts : Starts text) (hvalue : Draft.readValue fuel text = (d, some (',' :: more))) :
    Draft.readItems (fuel + 1) first text =
      (d :: (Draft.readItems fuel false more).1, (Draft.readItems fuel false more).2) := by
  rw [Draft.readItems, dropWhile_of_starts hstarts, hvalue]
  · rfl
  · intro rest htext _
    rw [dropWhile_of_starts hstarts] at htext
    exact ne_of_starts hstarts htext

/-- An item with the bracket behind it. -/
theorem readItems_last {fuel : Nat} {first : Bool} {text b more : List Char} {d : Draft}
    (hstarts : Starts text) (hb : Spaces b)
    (hvalue : Draft.readValue fuel text = (d, some (b ++ ']' :: more))) :
    Draft.readItems (fuel + 1) first text = ([d], some more) := by
  rw [Draft.readItems, dropWhile_of_starts hstarts, hvalue]
  · simp only [List.dropWhile_append_of_pos hb]
    rfl
  · intro rest htext _
    rw [dropWhile_of_starts hstarts] at htext
    exact ne_of_starts hstarts htext

theorem dropWhile_member (key : String) (text : List Char) :
    ((quote key).toList ++ text).dropWhile Draft.isSpace =
      '"' :: (key.toList.flatMap escapedChar ++ '"' :: text) := by
  have hquote : Draft.isSpace '"' = false := by decide
  rw [toList_quote, List.cons_append, List.append_assoc, List.singleton_append]
  exact List.dropWhile_cons_of_neg (by simp [hquote])

theorem readValue_behindColon (fuel : Nat) (value : List Char) :
    Draft.readValue fuel (' ' :: value) = Draft.readValue fuel value := by
  have hspace : Spaces [' '] := by decide
  exact readValue_spaces hspace fuel value

/-- A member with a comma behind it. -/
theorem readMembers_more {fuel : Nat} {first : Bool} {key : String} {value more : List Char}
    {d : Draft} (hvalue : Draft.readValue fuel value = (d, some (',' :: more))) :
    Draft.readMembers (fuel + 1) first ((quote key).toList ++ (": ".toList ++ value)) =
      ((key, d) :: (Draft.readMembers fuel false more).1,
        (Draft.readMembers fuel false more).2) := by
  have hcolon : (": ".toList ++ value).dropWhile Draft.isSpace = ':' :: ' ' :: value := rfl
  rw [Draft.readMembers, readText_quote key (": ".toList ++ value)]
  · simp only [hcolon, readValue_behindColon, hvalue]
    rfl
  · exact dropWhile_member key _

/-- A member with the bracket behind it. -/
theorem readMembers_last {fuel : Nat} {first : Bool} {key : String} {value b more : List Char}
    {d : Draft} (hb : Spaces b)
    (hvalue : Draft.readValue fuel value = (d, some (b ++ '\x7d' :: more))) :
    Draft.readMembers (fuel + 1) first ((quote key).toList ++ (": ".toList ++ value)) =
      ([(key, d)], some more) := by
  have hcolon : (": ".toList ++ value).dropWhile Draft.isSpace = ':' :: ' ' :: value := rfl
  rw [Draft.readMembers, readText_quote key (": ".toList ++ value)]
  · simp only [hcolon, readValue_behindColon, hvalue, List.dropWhile_append_of_pos hb]
    rfl
  · exact dropWhile_member key _

/-! ## Whole values -/

/-- The lines of a block, with their indentation and what separates them. -/
def listing (deeper : String) (lines : List String) : List Char :=
  (String.intercalate ",\n" (lines.map (deeper ++ ·))).toList

theorem toList_block_cons (opening closing indent line : String) (lines : List String) :
    (block opening closing indent (line :: lines)).toList =
      opening.toList ++ ('\n' :: (listing (indent ++ "  ") (line :: lines)
        ++ (('\n' :: indent.toList) ++ closing.toList))) := by
  unfold block listing
  simp

theorem listing_one (deeper line : String) :
    listing deeper [line] = deeper.toList ++ line.toList := by
  unfold listing
  simp

theorem listing_cons (deeper line next : String) (lines : List String) :
    listing deeper (line :: next :: lines) =
      deeper.toList ++ (line.toList ++ (',' :: '\n' :: listing deeper (next :: lines))) := by
  unfold listing
  simp [String.intercalate_cons_cons]

theorem Ends.newline (rest : List Char) : Ends ('\n' :: rest) := by
  intro c hc
  exact .inr (Option.some.inj hc).symm

theorem Ends.comma (rest : List Char) : Ends (',' :: rest) := by
  intro c hc
  exact .inl (Option.some.inj hc).symm

theorem Starts.append {text : List Char} (h : Starts text) (rest : List Char) :
    Starts (text ++ rest) := by
  obtain ⟨c, tail, rfl, hc⟩ := h
  exact ⟨c, tail ++ rest, rfl, hc⟩

theorem toList_member (key value : String) :
    (quote key ++ ": " ++ value).toList = (quote key).toList ++ (": ".toList ++ value.toList) := by
  rw [String.toList_append, String.toList_append, List.append_assoc]

theorem exists_fuel {n fuel : Nat} (h : n < fuel) : ∃ left, fuel = left + 1 :=
  Nat.exists_eq_succ_of_ne_zero (Nat.ne_zero_of_lt h)

theorem spaces_newline : Spaces ['\n'] := by decide

mutual

/-- The written form of a value is read back, whatever follows it. -/
theorem readValue_pretty : ∀ (v : Json) (indent : String) (fuel : Nat) (rest : List Char),
    v.Exact → Spaces indent.toList → Ends rest → 2 * (prettyAt indent v).toList.length < fuel →
      Draft.readValue fuel ((prettyAt indent v).toList ++ rest) = (Draft.ofJson v, some rest)
  | .null => by
      intro indent fuel rest _ _ _ hfuel
      obtain ⟨left, rfl⟩ := exists_fuel hfuel
      rw [prettyAt, Draft.ofJson]
      rfl
  | .bool b => by
      intro indent fuel rest _ _ _ hfuel
      obtain ⟨left, rfl⟩ := exists_fuel hfuel
      rw [prettyAt, Draft.ofJson]
      cases b with
      | true => rfl
      | false => rfl
  | .text t => by
      intro indent fuel rest _ _ _ hfuel
      obtain ⟨left, rfl⟩ := exists_fuel hfuel
      rw [prettyAt, Draft.ofJson, toList_quote, List.cons_append, List.append_assoc]
      exact readValue_text left (readText_quote t rest)
  | .number n => by
      intro indent fuel rest hexact _ hrest hfuel
      obtain ⟨left, rfl⟩ := exists_fuel hfuel
      obtain ⟨c, tail, htext, hc⟩ := exists_render hexact
      have hread := readNumber_render hexact hrest
      rw [htext] at hread
      rw [prettyAt, Draft.ofJson, htext]
      exact readValue_number hc left hread
  | .array [] => by
      intro indent fuel rest _ _ _ hfuel
      have htext : prettyAt indent (.array []) = "[]" := by rw [prettyAt, prettyItems]; rfl
      rw [htext] at hfuel ⊢
      obtain ⟨left, rfl⟩ : ∃ left, fuel = left + 1 + 1 := ⟨fuel - 2, by simp at hfuel; omega⟩
      rw [Draft.ofJson, Draft.ofItems]
      rfl
  | .object [] => by
      intro indent fuel rest _ _ _ hfuel
      have htext : prettyAt indent (.object []) = "\x7b\x7d" := by rw [prettyAt, prettyMembers]; rfl
      rw [htext] at hfuel ⊢
      obtain ⟨left, rfl⟩ : ∃ left, fuel = left + 1 + 1 := ⟨fuel - 2, by simp at hfuel; omega⟩
      rw [Draft.ofJson, Draft.ofMembers]
      rfl
  | .array (v :: items) => by
      intro indent fuel rest hexact hindent _ hfuel
      obtain ⟨left, rfl⟩ := exists_fuel hfuel
      have htext : (prettyAt indent (.array (v :: items))).toList ++ rest =
          '[' :: (['\n'] ++ (listing (indent ++ "  ") (prettyItems (indent ++ "  ") (v :: items))
            ++ (('\n' :: indent.toList) ++ ']' :: rest))) := by
        rw [prettyAt, prettyItems, toList_block_cons]
        simp
      have hlength := congrArg List.length htext
      simp only [List.length_append, List.length_cons] at hlength
      have hitems := readItems_pretty (v :: items) indent left true rest (by simp) hexact hindent
        (by omega)
      rw [htext, readValue_array, readItems_spaces spaces_newline, hitems, Draft.ofJson]
      rfl
  | .object ((k, v) :: members) => by
      intro indent fuel rest hexact hindent _ hfuel
      obtain ⟨left, rfl⟩ := exists_fuel hfuel
      have htext : (prettyAt indent (.object ((k, v) :: members))).toList ++ rest =
          '\x7b' :: (['\n'] ++ (listing (indent ++ "  ")
            (prettyMembers (indent ++ "  ") ((k, v) :: members))
              ++ (('\n' :: indent.toList) ++ '\x7d' :: rest))) := by
        rw [prettyAt, prettyMembers, toList_block_cons]
        simp
      have hlength := congrArg List.length htext
      simp only [List.length_append, List.length_cons] at hlength
      have hmembers := readMembers_pretty ((k, v) :: members) indent left true rest (by simp) hexact
        hindent (by omega)
      rw [htext, readValue_object, readMembers_spaces spaces_newline, hmembers, Draft.ofJson]
      rfl

/-- The lines of items are read back, with the bracket behind them. -/
theorem readItems_pretty : ∀ (items : List Json) (indent : String) (fuel : Nat) (first : Bool)
    (rest : List Char), items ≠ [] → ExactItems items → Spaces indent.toList →
      2 * (listing (indent ++ "  ") (prettyItems (indent ++ "  ") items)).length + 1 < fuel →
      Draft.readItems fuel first (listing (indent ++ "  ") (prettyItems (indent ++ "  ") items)
          ++ (('\n' :: indent.toList) ++ ']' :: rest)) =
        (Draft.ofItems items, some rest)
  | [] => by
      intro indent fuel first rest hne
      exact absurd rfl hne
  | [v] => by
      intro indent fuel first rest _ hexact hindent hfuel
      obtain ⟨left, rfl⟩ := exists_fuel hfuel
      rw [prettyItems, prettyItems, listing_one] at hfuel ⊢
      rw [List.length_append] at hfuel
      have hvalue := readValue_pretty v (indent ++ "  ") left
        (('\n' :: indent.toList) ++ ']' :: rest) hexact.1 hindent.deeper (.newline _) (by omega)
      rw [List.append_assoc, readItems_spaces hindent.deeper]
      exact readItems_last ((starts_pretty hexact.1 _).append _) hindent.newline hvalue
  | v :: w :: items => by
      intro indent fuel first rest _ hexact hindent hfuel
      obtain ⟨left, rfl⟩ := exists_fuel hfuel
      rw [prettyItems, prettyItems, listing_cons, ← prettyItems] at hfuel ⊢
      simp only [List.append_assoc, List.length_append, List.length_cons] at hfuel ⊢
      have hitems := readItems_pretty (w :: items) indent left false rest (by simp) hexact.2 hindent
        (by omega)
      have hvalue := readValue_pretty v (indent ++ "  ") left (',' :: (['\n'] ++
        (listing (indent ++ "  ") (prettyItems (indent ++ "  ") (w :: items))
          ++ (('\n' :: indent.toList) ++ ']' :: rest)))) hexact.1 hindent.deeper (.comma _)
        (by omega)
      have hread : Draft.readItems (left + 1) first _ = _ :=
        readItems_more ((starts_pretty hexact.1 _).append _) hvalue
      rw [readItems_spaces spaces_newline, hitems] at hread
      rw [readItems_spaces hindent.deeper]
      exact hread

/-- The lines of members are read back, with the bracket behind them. -/
theorem readMembers_pretty : ∀ (members : List (String × Json)) (indent : String) (fuel : Nat)
    (first : Bool) (rest : List Char), members ≠ [] → ExactMembers members → Spaces indent.toList →
      2 * (listing (indent ++ "  ") (prettyMembers (indent ++ "  ") members)).length + 1 < fuel →
      Draft.readMembers fuel first
        (listing (indent ++ "  ") (prettyMembers (indent ++ "  ") members)
          ++ (('\n' :: indent.toList) ++ '\x7d' :: rest)) =
        (Draft.ofMembers members, some rest)
  | [] => by
      intro indent fuel first rest hne
      exact absurd rfl hne
  | [(k, v)] => by
      intro indent fuel first rest _ hexact hindent hfuel
      obtain ⟨left, rfl⟩ := exists_fuel hfuel
      rw [prettyMembers, prettyMembers, listing_one, toList_member] at hfuel ⊢
      simp only [List.append_assoc, List.length_append] at hfuel ⊢
      have hvalue := readValue_pretty v (indent ++ "  ") left
        (('\n' :: indent.toList) ++ '\x7d' :: rest) hexact.1 hindent.deeper (.newline _) (by omega)
      rw [readMembers_spaces hindent.deeper]
      exact readMembers_last hindent.newline hvalue
  | (k, v) :: (l, w) :: members => by
      intro indent fuel first rest _ hexact hindent hfuel
      obtain ⟨left, rfl⟩ := exists_fuel hfuel
      rw [prettyMembers, prettyMembers, listing_cons, ← prettyMembers, toList_member] at hfuel ⊢
      simp only [List.append_assoc, List.length_append, List.length_cons] at hfuel ⊢
      have hmembers := readMembers_pretty ((l, w) :: members) indent left false rest (by simp)
        hexact.2 hindent (by omega)
      have hvalue := readValue_pretty v (indent ++ "  ") left (',' :: (['\n'] ++
        (listing (indent ++ "  ") (prettyMembers (indent ++ "  ") ((l, w) :: members))
          ++ (('\n' :: indent.toList) ++ '\x7d' :: rest)))) hexact.1 hindent.deeper (.comma _)
        (by omega)
      have hread : Draft.readMembers (left + 1) first
          ((quote k).toList ++ (": ".toList ++ _)) = _ := readMembers_more hvalue
      rw [readMembers_spaces spaces_newline, hmembers] at hread
      rw [readMembers_spaces hindent.deeper]
      exact hread

end

/-- **A value with exact numbers is read back from its pretty form.** -/
theorem read_pretty {v : Json} (hexact : v.Exact) :
    Draft.read v.pretty = ⟨Draft.ofJson v, true⟩ := by
  have hvalue := readValue_pretty v "" (2 * v.pretty.toList.length + 2) [] hexact
    (by simp [Spaces]) (by simp [Ends]) (by unfold pretty; omega)
  rw [List.append_nil] at hvalue
  unfold Draft.read
  simp only [pretty] at hvalue ⊢
  rw [hvalue]
  rfl

end ApiAtlas.Json
