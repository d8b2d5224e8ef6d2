import ApiAtlas.Proofs.Document.Alike
set_option autoImplicit false

/-!
# Document: the rules for values are local

Brackets, repetition, names, types, numbers, texts and values: each rule agrees with itself on alike
texts, whatever its fuel is, as long as there is enough of it.  Where a rule of the grammar is a
chain of choices, it is first written as one.
-/

namespace ApiAtlas.Document

namespace Rule

variable {α : Type} {d : Nat} {s t : List Char}

/-! ## Brackets -/

/-- The given character. -/
def exactly (c : Char) : Rule Unit
  | [] => none
  | a :: rest => if a = c then some ((), rest) else none

theorem literal_eq_exactly {e : String} {c : Char} (he : e.toList = [c]) (s : List Char) :
    literal e s = exactly c s := by
  cases s with
  | nil => simp [literal, Text.dropHead?, he, List.isPrefixOf?, exactly]
  | cons a s =>
      by_cases ha : a = c
      · simp [literal, Text.dropHead?, he, List.isPrefixOf?, exactly, ha]
      · simp [literal, Text.dropHead?, he, List.isPrefixOf?, exactly, ha, Ne.symm ha]

/-- A closing bracket that does not end the definition is passed in both texts or in neither. -/
theorem agree_exactly {c : Char} (hc : isClosing c = true) (hbrace : d = 0 → c ≠ '}')
    (h : Alike (d + 1) s t) : Agree (Moves 1 (d + 1) s t d) (exactly c s) (exactly c t) := by
  cases s with
  | nil =>
      obtain rfl := h.eq_nil
      exact .none
  | cons a s =>
      by_cases ha : a = c
      · subst ha
        obtain ⟨t', rfl, hclose⟩ := h.move_closing hc hbrace
        simp only [exactly, if_true]
        exact .some hclose
      · obtain ⟨t', rfl⟩ := h.eq_cons
        simp only [exactly, ha, if_false]
        exact .none

/-- A rule between two brackets, with gaps inside them. -/
def between {α : Type} (o c : Char) (inner : Rule α) : Rule α := fun s =>
  (exactly o s).bind fun r =>
    (inner (skip r.2)).bind fun x => (exactly c (skip x.2)).bind fun w => some (x.1, w.2)

theorem between_cons {o : Char} (c : Char) (inner : Rule α) (rest : List Char) :
    between o c inner (o :: rest) =
      (inner (skip rest)).bind fun x =>
        (exactly c (skip x.2)).bind fun w => some (x.1, w.2) := by
  simp only [between, exactly, if_true, Option.bind_some]

theorem between_of_ne {o : Char} (c : Char) (inner : Rule α) (hs : ∀ rest, s ≠ o :: rest) :
    between o c inner s = none := by
  cases s with
  | nil => rfl
  | cons a s =>
      have ha : a ≠ o := by
        rintro rfl
        exact hs s rfl
      simp only [between, exactly, ha, if_false, Option.bind_none]

/-- Between brackets rules agree if they do one level deeper; the closing bracket is not passed. -/
theorem agree_between {o : Char} (ho : isOpening o = true) (c : Char) {inner inner' : Rule α}
    (h : Alike d s t)
    (hinner : ∀ s' t', Moves 1 d s t (d + 1) s' t' →
      Agree (Moves 0 (d + 1) s' t' (d + 1)) (inner s') (inner' t')) :
    Agree (fun y z => Moves 1 d s t (d + 1) (c :: y) (c :: z)) (between o c inner s)
      (between o c inner' t) := by
  cases s with
  | nil =>
      obtain rfl := h.eq_nil
      exact .none
  | cons a s =>
      by_cases ha : a = o
      · subst ha
        obtain ⟨t', rfl, hopen⟩ := h.move_opening ho
        simp only [between, exactly, if_true, Option.bind_some]
        have hstart := hopen.trans hopen.alike.skip
        refine (hinner _ _ hstart).bind fun x y z hyz => ?_
        have hend := hstart.trans (hyz.trans hyz.alike.skip)
        cases hy : skip y with
        | nil =>
            rw [hy] at hend
            rw [hend.alike.eq_nil]
            exact .none
        | cons b y' =>
            rw [hy] at hend
            obtain ⟨z', hz⟩ := hend.alike.eq_cons
            rw [hz] at hend ⊢
            by_cases hb : b = c
            · subst hb
              simp only [if_true, Option.bind_some]
              exact .some hend
            · simp only [hb, if_false, Option.bind_none]
              exact .none
      · obtain ⟨t', rfl⟩ := h.eq_cons
        simp only [between, exactly, ha, if_false, Option.bind_none]
        exact .none

/-- Between brackets that do not end the definition rules agree. -/
theorem agree_between_closed {o c : Char} (ho : isOpening o = true) (hc : isClosing c = true)
    (hbrace : d = 0 → c ≠ '}') {inner inner' : Rule α} (h : Alike d s t)
    (hinner : ∀ s' t', Moves 1 d s t (d + 1) s' t' →
      Agree (Moves 0 (d + 1) s' t' (d + 1)) (inner s') (inner' t')) :
    Agree (Moves 1 d s t d) (between o c inner s) (between o c inner' t) := by
  refine (agree_between ho c h hinner).mono fun y z hyz => ?_
  obtain ⟨z', hz, hclose⟩ := hyz.alike.move_closing hc hbrace
  rw [List.cons.injEq] at hz
  rw [hz.2] at hyz ⊢
  exact hyz.trans hclose

/-! ## Repetition -/

/-- Repeated rules agree if the rules do on all shorter texts. -/
theorem agree_many {rule rule' : Rule α} (bound bound' : Nat)
    (hrule : ∀ s t, Alike d s t → s.length ≤ bound → t.length ≤ bound' →
      Agree (Moves 1 d s t d) (rule s) (rule' t))
    (fuel fuel' : Nat) (h : Alike d s t) (hs : s.length ≤ bound) (ht : t.length ≤ bound')
    (hfuel : s.length < fuel) (hfuel' : t.length < fuel') :
    Agree (Moves 0 d s t d) (many rule fuel s) (many rule' fuel' t) := by
  induction fuel generalizing fuel' s t with
  | zero => exact absurd hfuel (Nat.not_lt_zero _)
  | succ fuel ih =>
      cases fuel' with
      | zero => exact absurd hfuel' (Nat.not_lt_zero _)
      | succ fuel' =>
          simp only [many]
          rcases (hrule s t h hs ht).cases_some with ⟨hr, hr'⟩ | ⟨a, y, z, hr, hr', hyz⟩
          · simp only [hr, hr']
            exact .some (.refl h)
          · simp only [hr, hr']
            have hskip := hyz.alike.skip
            have hy := hyz.length_left
            have hz := hyz.length_right
            have hsy := hskip.length_left
            have hsz := hskip.length_right
            have hmore := ih fuel' hskip.alike (by omega) (by omega) (by omega) (by omega)
            rcases hmore.cases_some with ⟨hm, hm'⟩ | ⟨as, y', z', hm, hm', hyz'⟩
            · simp only [hm, hm']
              exact .none
            · simp only [hm, hm']
              cases as with
              | nil => exact .some hyz.weaken
              | cons b as => exact .some (hyz.weaken.trans (hskip.trans hyz'))

theorem agree_atLeastOne {rule rule' : Rule α} (bound bound' : Nat)
    (hrule : ∀ s t, Alike d s t → s.length ≤ bound → t.length ≤ bound' →
      Agree (Moves 1 d s t d) (rule s) (rule' t))
    (fuel fuel' : Nat) (h : Alike d s t) (hs : s.length ≤ bound) (ht : t.length ≤ bound')
    (hfuel : s.length < fuel) (hfuel' : t.length < fuel') :
    Agree (Moves 0 d s t d) (atLeastOne rule fuel s) (atLeastOne rule' fuel' t) := by
  have hmany := agree_many bound bound' hrule fuel fuel' h hs ht hfuel hfuel'
  simp only [atLeastOne]
  rcases hmany.cases_some with ⟨hm, hm'⟩ | ⟨as, y, z, hm, hm', hyz⟩
  · simp only [hm, hm']
    exact .none
  · simp only [hm, hm']
    cases as with
    | nil => exact .none
    | cons a as => exact .some hyz

/-! ## Names and types -/

theorem agree_reference (h : Alike d s t) :
    Agree (Moves 1 d s t d) (reference s) (reference t) := by
  refine (agree_literal (by decide) (by decide) h).bind fun _ y z hyz => ?_
  have hskip := hyz.trans hyz.alike.skip
  exact (agree_name hskip.alike).mono fun _ _ hname => hskip.trans hname

theorem agree_typeCondition (h : Alike d s t) :
    Agree (Moves 1 d s t d) (typeCondition s) (typeCondition t) := by
  refine (agree_literal (by decide) (by decide) h).bind fun _ y z hyz => ?_
  obtain ⟨_, hgaps⟩ := hyz.alike.span fun c hc => isPlain_of_isGap hc
  -- At least one blank stands behind the keyword, in both texts or in neither.
  have hlength : ((y.dropWhile isGap).length == y.length) =
      ((z.dropWhile isGap).length == z.length) := by
    obtain ⟨u, _, hy, hz⟩ := hgaps.used
    have hy' := congrArg List.length hy
    have hz' := congrArg List.length hz
    rw [List.length_append] at hy' hz'
    rw [Bool.eq_iff_iff, beq_iff_eq, beq_iff_eq]
    omega
  simp only [hlength]
  split
  · exact .none
  · have hname := agree_name hgaps.alike
    exact hname.mono fun _ _ hmove => hyz.trans (hgaps.trans hmove)

theorem marked_of_ne (inner : String) {c : Char} (hc : c ≠ '!') (rest : List Char) :
    marked inner (c :: rest) = (inner, c :: rest) := by
  rw [marked]
  intro more hmore
  exact hc (List.cons.inj hmore).1

/-- Rules agree also on types with the mark behind them. -/
theorem agree_marked {n : Nat} {r r' : Option (String × List Char)}
    (h : Agree (Moves n d s t d) r r') :
    Agree (Moves n d s t d) (r.map fun x => marked x.1 x.2) (r'.map fun x => marked x.1 x.2) := by
  cases h with
  | none => exact .none
  | @some inner y z hyz =>
      cases y with
      | nil =>
          obtain rfl := hyz.alike.eq_nil
          exact .some hyz
      | cons c y =>
          by_cases hc : c = '!'
          · subst hc
            obtain ⟨z', rfl, hmove⟩ := hyz.alike.move_plain (by decide)
            exact .some (hyz.trans hmove)
          · obtain ⟨z', rfl⟩ := hyz.alike.eq_cons
            simp only [Option.map_some, marked_of_ne inner hc]
            exact .some hyz

theorem type_list (fuel : Nat) (more : List Char) :
    type (fuel + 1) ('[' :: more) =
      ((type fuel more).bind fun r =>
        (exactly ']' r.2).bind fun w => some ("[" ++ r.1 ++ "]", w.2)).map
          fun r => marked r.1 r.2 := by
  simp only [type, ← literal_eq_exactly (e := "]") (c := ']') rfl]
  rfl

theorem type_name (fuel : Nat) (hs : ∀ more, s ≠ '[' :: more) :
    type (fuel + 1) s = (name s).map fun r => marked r.1 r.2 := by
  simp only [type]

theorem agree_type (fuel fuel' : Nat) (h : Alike d s t) (hfuel : s.length < fuel)
    (hfuel' : t.length < fuel') :
    Agree (Moves 1 d s t d) (type fuel s) (type fuel' t) := by
  induction fuel generalizing fuel' s t d with
  | zero => exact absurd hfuel (Nat.not_lt_zero _)
  | succ fuel ih =>
      cases fuel' with
      | zero => exact absurd hfuel' (Nat.not_lt_zero _)
      | succ fuel' =>
          by_cases hlist : ∃ more, s = '[' :: more
          · obtain ⟨more, rfl⟩ := hlist
            obtain ⟨more', rfl, hopen⟩ := h.move_opening (by decide)
            rw [type_list, type_list]
            simp only [List.length_cons] at hfuel hfuel'
            refine agree_marked ?_
            refine (ih fuel' hopen.alike (by omega) (by omega)).bind fun item y z hyz => ?_
            have hclose := agree_exactly (c := ']') (by decide) (by simp) hyz.alike
            exact hclose.bind fun _ y' z' hend => .some (hopen.trans (hyz.trans hend))
          · have hs : ∀ more, s ≠ '[' :: more := fun more hmore => hlist ⟨more, hmore⟩
            rw [type_name fuel hs, type_name fuel' (h.ne_cons hs)]
            exact agree_marked (agree_name h)

/-! ## Numbers and texts -/

theorem isPlain_of_isDigit {c : Char} (hc : c.isDigit = true) : isPlain c = true := by
  apply isPlain_of_isWordPart
  simp [isWordPart, Char.isAlphanum, hc]

/-- A run of digits that must not be empty. -/
theorem agree_digits {β : Type} (f : List Char → β) (h : Alike d s t) :
    Agree (Moves 1 d s t d)
      (if (s.takeWhile Char.isDigit).isEmpty then none
        else some (f (s.takeWhile Char.isDigit), s.dropWhile Char.isDigit))
      (if (t.takeWhile Char.isDigit).isEmpty then none
        else some (f (t.takeWhile Char.isDigit), t.dropWhile Char.isDigit)) := by
  obtain ⟨htake, hdrop⟩ := h.span fun c hc => isPlain_of_isDigit hc
  rw [← htake]
  split
  · exact .none
  · rename_i hne
    obtain ⟨u, _, hs, ht⟩ := hdrop.used
    refine .some ⟨hdrop.alike, hdrop.walk, u, ?_, hs, ht⟩
    have hlength := congrArg List.length hs
    have hsplit := congrArg List.length (s.takeWhile_append_dropWhile (p := Char.isDigit))
    rw [List.isEmpty_iff, ← List.length_eq_zero_iff] at hne
    rw [List.length_append] at hlength hsplit
    omega

theorem agree_wholeDigits (h : Alike d s t) :
    Agree (Moves 1 d s t d) (wholeDigits s) (wholeDigits t) := by
  by_cases hzero : ∃ rest, s = '0' :: rest
  · obtain ⟨rest, rfl⟩ := hzero
    obtain ⟨t', rfl, hmove⟩ := h.move_plain (by decide)
    exact .some hmove
  · have hs : ∀ rest, s ≠ '0' :: rest := fun rest hrest => hzero ⟨rest, hrest⟩
    rw [wholeDigits, wholeDigits]
    · exact agree_digits id h
    · exact h.ne_cons hs
    · exact hs

theorem agree_readFraction (h : Alike d s t) :
    Agree (Moves 0 d s t d) (Json.Draft.readFraction s) (Json.Draft.readFraction t) := by
  by_cases hpoint : ∃ rest, s = '.' :: rest
  · obtain ⟨rest, rfl⟩ := hpoint
    obtain ⟨t', rfl, hmove⟩ := h.move_plain (by decide)
    exact (agree_digits id hmove.alike).mono fun _ _ hdigits => (hmove.trans hdigits).weaken
  · have hs : ∀ rest, s ≠ '.' :: rest := fun rest hrest => hpoint ⟨rest, hrest⟩
    rw [Json.Draft.readFraction, Json.Draft.readFraction]
    · exact .some (.refl h)
    · exact h.ne_cons hs
    · exact hs

theorem agree_readExponentDigits (negative : Bool) (h : Alike d s t) :
    Agree (Moves 1 d s t d) (Json.Draft.readExponentDigits negative s)
      (Json.Draft.readExponentDigits negative t) :=
  agree_digits (fun digits => some
    (if negative then -(Json.Draft.digitsValue digits : Int) else Json.Draft.digitsValue digits)) h

theorem agree_readExponent (h : Alike d s t) :
    Agree (Moves 0 d s t d) (Json.Draft.readExponent s) (Json.Draft.readExponent t) := by
  cases s with
  | nil =>
      obtain rfl := h.eq_nil
      exact .some (.refl h)
  | cons c s =>
      by_cases hmark : (c == 'e' || c == 'E') = true
      · have hplain : isPlain c = true := by
          simp only [Bool.or_eq_true, beq_iff_eq] at hmark
          rcases hmark with rfl | rfl <;> decide
        obtain ⟨t', rfl, hmove⟩ := h.move_plain hplain
        by_cases hplus : ∃ more, s = '+' :: more
        · obtain ⟨more, rfl⟩ := hplus
          simp only [Json.Draft.readExponent, hmark, if_true]
          obtain ⟨more', rfl, hsign⟩ := hmove.alike.move_plain (by decide)
          exact (agree_readExponentDigits false hsign.alike).mono fun _ _ hdigits =>
            (hmove.trans (hsign.trans hdigits)).weaken
        · by_cases hminus : ∃ more, s = '-' :: more
          · obtain ⟨more, rfl⟩ := hminus
            simp only [Json.Draft.readExponent, hmark, if_true]
            obtain ⟨more', rfl, hsign⟩ := hmove.alike.move_plain (by decide)
            exact (agree_readExponentDigits true hsign.alike).mono fun _ _ hdigits =>
              (hmove.trans (hsign.trans hdigits)).weaken
          · have hplus' : ∀ more, s ≠ '+' :: more := fun more hmore => hplus ⟨more, hmore⟩
            have hminus' : ∀ more, s ≠ '-' :: more := fun more hmore => hminus ⟨more, hmore⟩
            have hplus'' := hmove.alike.ne_cons hplus'
            have hminus'' := hmove.alike.ne_cons hminus'
            simp only [Json.Draft.readExponent, hmark, if_true]
            exact (agree_readExponentDigits false hmove.alike).mono fun _ _ hmore =>
              (hmove.trans hmore).weaken
      · obtain ⟨t', rfl⟩ := h.eq_cons
        simp only [Json.Draft.readExponent, hmark]
        exact .some (.refl h)

/-- The digits of a number behind its sign. -/
def unsigned (negative : Bool) : Rule (Option Json.Number) := fun s =>
  (wholeDigits s).bind fun whole =>
    let fraction := (Json.Draft.readFraction whole.2).getD ([], whole.2)
    let exponent := (Json.Draft.readExponent fraction.2).getD (none, fraction.2)
    if exponent.2.head?.any isNameStart then none
    else some (Json.Draft.numberOf negative whole.1 fraction.1 exponent.1, exponent.2)

theorem number_minus (rest : List Char) : number ('-' :: rest) = unsigned true rest := by
  simp only [number, unsigned]
  rfl

theorem number_of_ne (hs : ∀ rest, s ≠ '-' :: rest) : number s = unsigned false s := by
  simp only [number, unsigned]
  rfl

theorem agree_unsigned (negative : Bool) (h : Alike d s t) :
    Agree (Moves 1 d s t d) (unsigned negative s) (unsigned negative t) := by
  refine (agree_wholeDigits h).bind fun whole y z hyz => ?_
  obtain ⟨hfraction, hyz'⟩ := (agree_readFraction hyz.alike).getD [] hyz.alike
  obtain ⟨hexponent, hyz''⟩ := (agree_readExponent hyz'.alike).getD none hyz'.alike
  simp only [hfraction, hexponent, hyz''.alike.head?_eq]
  split
  · exact .none
  · exact .some (hyz.trans (hyz'.trans hyz''))

theorem agree_number (h : Alike d s t) :
    Agree (Moves 1 d s t d) (number s) (number t) := by
  by_cases hminus : ∃ rest, s = '-' :: rest
  · obtain ⟨rest, rfl⟩ := hminus
    obtain ⟨t', rfl, hmove⟩ := h.move_plain (by decide)
    rw [number_minus, number_minus]
    exact (agree_unsigned true hmove.alike).mono fun _ _ hdigits => hmove.trans hdigits
  · have hs : ∀ rest, s ≠ '-' :: rest := fun rest hrest => hminus ⟨rest, hrest⟩
    rw [number_of_ne hs, number_of_ne (h.ne_cons hs)]
    exact agree_unsigned false h

theorem text_of_ne {c : Char} (hc : c ≠ '"') (rest : List Char) : text (c :: rest) = none := by
  simp [text, hc]

theorem agree_text (h : Alike d s t) : Agree (Moves 1 d s t d) (text s) (text t) := by
  cases s with
  | nil =>
      obtain rfl := h.eq_nil
      exact .none
  | cons c s =>
      by_cases hc : c = '"'
      · subst hc
        obtain ⟨q, y, z, v, rfl, rfl, htext, hquotes, hyz⟩ := h.of_quoted
        rw [(text_append htext hquotes).1,
          (text_append htext (by rwa [← hyz.head?_eq])).1]
        refine .some ?_
        obtain ⟨hend, hwalk, u, hu, hs, ht⟩ :=
          Moves.step (u := '"' :: q) (.quoted htext hquotes) hyz
        exact ⟨hend, hwalk, u, Nat.le_trans (by simp) hu, hs, ht⟩
      · obtain ⟨t', rfl⟩ := h.eq_cons
        rw [text_of_ne hc, text_of_ne hc]
        exact .none

theorem bool_eq (s : List Char) :
    bool s = ((literal "true" s).map fun r => (true, r.2)).or
      ((literal "false" s).map fun r => (false, r.2)) := by
  simp only [bool]
  cases literal "true" s <;> rfl

theorem agree_bool (h : Alike d s t) : Agree (Moves 1 d s t d) (bool s) (bool t) := by
  rw [bool_eq, bool_eq]
  have htrue := agree_literal (e := "true") (by decide) (by decide) h
  have hfalse := agree_literal (e := "false") (by decide) (by decide) h
  exact (htrue.map fun _ => true).or (hfalse.map fun _ => false)

/-! ## Values -/

/-- A value that is no list and no object. -/
def scalar (constant : Bool) : Rule Value := fun s =>
  (((((if constant then none else (reference s).map fun r => (Value.reference r.1, r.2)).or
    ((number s).map fun r => (Value.number r.1, r.2))).or
    ((text s).map fun r => (Value.text r.1, r.2))).or
    ((bool s).map fun r => (Value.bool r.1, r.2))).or
    ((literal "null" s).map fun r => (Value.null, r.2))).or
    ((name s).map fun r => (Value.enumerator r.1, r.2))

theorem agree_scalar (constant : Bool) (h : Alike d s t) :
    Agree (Moves 1 d s t d) (scalar constant s) (scalar constant t) := by
  have hreference : Agree (Moves 1 d s t d)
      (if constant then none else (reference s).map fun r => (Value.reference r.1, r.2))
      (if constant then none else (reference t).map fun r => (Value.reference r.1, r.2)) := by
    cases constant with
    | true => exact .none
    | false => exact (agree_reference h).map Value.reference
  have hnull := agree_literal (e := "null") (by decide) (by decide) h
  exact ((((hreference.or ((agree_number h).map Value.number)).or
    ((agree_text h).map Value.text)).or ((agree_bool h).map Value.bool)).or
    (hnull.map fun _ => Value.null)).or ((agree_name h).map Value.enumerator)

theorem value_succ (constant : Bool) (fuel : Nat) (s : List Char) :
    value constant (fuel + 1) s =
      ((scalar constant s).or
        ((between '[' ']' (items constant fuel) s).map fun r => (Value.list r.1, r.2))).or
        ((between '{' '}' (fields constant fuel) s).map fun r => (Value.object r.1, r.2)) := by
  simp only [value, scalar]
  cases (if constant then none else (reference s).map fun r => (Value.reference r.1, r.2)) with
  | some r => rfl
  | none =>
  cases number s with
  | some r => rfl
  | none =>
  cases text s with
  | some r => rfl
  | none =>
  cases bool s with
  | some r => rfl
  | none =>
  cases literal "null" s with
  | some r => rfl
  | none =>
  cases name s with
  | some r => rfl
  | none =>
  simp only [Option.map_none, Option.or_none, Option.none_or]
  by_cases hlist : ∃ rest, s = '[' :: rest
  · obtain ⟨rest, rfl⟩ := hlist
    rw [between_cons, between_of_ne (o := '{') _ _ (by simp)]
    simp only [literal_eq_exactly (e := "]") (c := ']') rfl]
    cases items constant fuel (skip rest) with
    | none => rfl
    | some r =>
        simp only [Option.bind_some]
        cases exactly ']' (skip r.2) <;> rfl
  · by_cases hobject : ∃ rest, s = '{' :: rest
    · obtain ⟨rest, rfl⟩ := hobject
      rw [between_cons, between_of_ne (o := '[') _ _ (by simp)]
      simp only [literal_eq_exactly (e := "\x7d") (c := '}') rfl]
      cases fields constant fuel (skip rest) with
      | none => rfl
      | some r =>
          simp only [Option.bind_some]
          cases exactly '}' (skip r.2) <;> rfl
    · have hlist' : ∀ rest, s ≠ '[' :: rest := fun rest hrest => hlist ⟨rest, hrest⟩
      have hobject' : ∀ rest, s ≠ '{' :: rest := fun rest hrest => hobject ⟨rest, hrest⟩
      rw [between_of_ne _ _ hlist', between_of_ne _ _ hobject']
      split
      · rename_i rest
        exact absurd rfl (hlist' rest)
      · rename_i rest
        exact absurd rfl (hobject' rest)
      · rfl

/-- Values, items and fields agree inside brackets. The items of a list may have to stop before the
bracket, so they need one unit more. -/
theorem agree_value_items_fields (constant : Bool) (fuel fuel' : Nat) (h : Alike (d + 1) s t) :
    (2 * s.length + 1 ≤ fuel → 2 * t.length + 1 ≤ fuel' →
      Agree (Moves 1 (d + 1) s t (d + 1)) (value constant fuel s) (value constant fuel' t)) ∧
    (2 * s.length + 2 ≤ fuel → 2 * t.length + 2 ≤ fuel' →
      Agree (Moves 0 (d + 1) s t (d + 1)) (items constant fuel s) (items constant fuel' t) ∧
      Agree (Moves 0 (d + 1) s t (d + 1)) (fields constant fuel s) (fields constant fuel' t)) := by
  induction fuel generalizing fuel' s t d with
  | zero => exact ⟨fun hs _ => absurd hs (by omega), fun hs _ => absurd hs (by omega)⟩
  | succ fuel ih =>
      cases fuel' with
      | zero => exact ⟨fun _ ht => absurd ht (by omega), fun _ ht => absurd ht (by omega)⟩
      | succ fuel' =>
          refine ⟨fun hs ht => ?_, fun hs ht => ⟨?_, ?_⟩⟩
          · rw [value_succ, value_succ]
            have hlist : Agree (Moves 1 (d + 1) s t (d + 1))
                (between '[' ']' (items constant fuel) s)
                (between '[' ']' (items constant fuel') t) := by
              refine agree_between_closed (by decide) (by decide) (by simp) h
                fun s' t' hmove => ?_
              have hs' := hmove.length_left
              have ht' := hmove.length_right
              exact ((ih fuel' hmove.alike).2 (by omega) (by omega)).1
            have hobject : Agree (Moves 1 (d + 1) s t (d + 1))
                (between '{' '}' (fields constant fuel) s)
                (between '{' '}' (fields constant fuel') t) := by
              refine agree_between_closed (by decide) (by decide) (by simp) h
                fun s' t' hmove => ?_
              have hs' := hmove.length_left
              have ht' := hmove.length_right
              exact ((ih fuel' hmove.alike).2 (by omega) (by omega)).2
            exact ((agree_scalar constant h).or (hlist.map Value.list)).or
              (hobject.map Value.object)
          · simp only [items]
            have hvalue := (ih fuel' h).1 (by omega) (by omega)
            rcases hvalue.cases_some with ⟨hv, hv'⟩ | ⟨v, y, z, hv, hv', hyz⟩
            · simp only [hv, hv']
              exact .some (.refl h)
            · simp only [hv, hv']
              have hskip := hyz.trans hyz.alike.skip
              have hs' := hskip.length_left
              have ht' := hskip.length_right
              have hmore := ((ih fuel' hskip.alike).2 (by omega) (by omega)).1
              rcases hmore.cases_some with ⟨hm, hm'⟩ | ⟨vs, y', z', hm, hm', hyz'⟩
              · simp only [hm, hm']
                exact .none
              · simp only [hm, hm']
                exact .some (hskip.trans hyz').weaken
          · simp only [fields]
            rcases (agree_name h).cases_some with ⟨hk, hk'⟩ | ⟨key, y, z, hk, hk', hyz⟩
            · simp only [hk, hk']
              exact .some (.refl h)
            simp only [hk, hk']
            have hskip := hyz.trans hyz.alike.skip
            have hcolon := agree_literal (e := ":") (by decide) (by decide) hskip.alike
            rcases hcolon.cases_some with ⟨hc, hc'⟩ | ⟨_, y₁, z₁, hc, hc', hyz₁⟩
            · simp only [hc, hc']
              exact .some (.refl h)
            simp only [hc, hc']
            have hskip₁ := hskip.trans (hyz₁.trans hyz₁.alike.skip)
            have hs₁ := hskip₁.length_left
            have ht₁ := hskip₁.length_right
            have hvalue := (ih fuel' hskip₁.alike).1 (by omega) (by omega)
            rcases hvalue.cases_some with ⟨hv, hv'⟩ | ⟨v, y₂, z₂, hv, hv', hyz₂⟩
            · simp only [hv, hv']
              exact .some (.refl h)
            simp only [hv, hv']
            have hskip₂ := hskip₁.trans (hyz₂.trans hyz₂.alike.skip)
            have hs₂ := hskip₂.length_left
            have ht₂ := hskip₂.length_right
            have hmore := ((ih fuel' hskip₂.alike).2 (by omega) (by omega)).2
            rcases hmore.cases_some with ⟨hm, hm'⟩ | ⟨fs, y₃, z₃, hm, hm', hyz₃⟩
            · simp only [hm, hm']
              exact .none
            simp only [hm, hm']
            exact .some (hskip₂.trans hyz₃).weaken

end Rule

end ApiAtlas.Document
