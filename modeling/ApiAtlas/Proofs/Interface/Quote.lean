import ApiAtlas.Proofs.Interface.Reading
set_option autoImplicit false

/-!
# Interface: readers stop at a quote

A quote is neither a blank nor a word character nor a mark of a declaration.  So the head of a
package, of a service or of a method stands before a quote or behind it, never across: what a reader
finds in a text is not changed by a quote and more text behind it.  Only the types of a method,
which hold anything up to a closing parenthesis, may go on over a quote.
-/

namespace ApiAtlas.Interface

/-! ## Blanks, words, marks and keywords -/

theorem dropWhile_append_cons {p : Char → Bool} {mark : Char} (hmark : p mark = false)
    (text rest : List Char) :
    (text ++ mark :: rest).dropWhile p = text.dropWhile p ++ mark :: rest := by
  induction text with
  | nil => exact List.dropWhile_cons_of_neg (by simp [hmark])
  | cons c text ih =>
      by_cases hc : p c = true
      · rw [List.cons_append, List.dropWhile_cons_of_pos hc, List.dropWhile_cons_of_pos hc, ih]
      · rw [List.cons_append, List.dropWhile_cons_of_neg hc, List.dropWhile_cons_of_neg hc,
          List.cons_append]

theorem takeWhile_append_cons {p : Char → Bool} {mark : Char} (hmark : p mark = false)
    (text rest : List Char) : (text ++ mark :: rest).takeWhile p = text.takeWhile p := by
  induction text with
  | nil => exact List.takeWhile_cons_of_neg (by simp [hmark])
  | cons c text ih =>
      by_cases hc : p c = true
      · rw [List.cons_append, List.takeWhile_cons_of_pos hc, List.takeWhile_cons_of_pos hc, ih]
      · rw [List.cons_append, List.takeWhile_cons_of_neg hc, List.takeWhile_cons_of_neg hc]

theorem behindBlanks?_quote (text rest : List Char) :
    behindBlanks? (text ++ '"' :: rest) = (behindBlanks? text).map (· ++ '"' :: rest) := by
  cases text with
  | nil => rfl
  | cons c text =>
      simp only [List.cons_append, behindBlanks?]
      split
      · rw [dropWhile_append_cons (by decide), Option.map_some]
      · rfl

theorem word?_quote (text rest : List Char) :
    word? (text ++ '"' :: rest) = (word? text).map fun r => (r.1, r.2 ++ '"' :: rest) := by
  have hquote : Text.isWord '"' = false := by decide
  simp only [word?, takeWhile_append_cons hquote, dropWhile_append_cons hquote]
  split <;> rfl

theorem behindMark?_quote {mark : Char} (hmark : mark ≠ '"') (text rest : List Char) :
    behindMark? mark (text ++ '"' :: rest) =
      (behindMark? mark text).map (· ++ '"' :: rest) := by
  unfold behindMark?
  rw [dropWhile_append_cons (by decide)]
  cases text.dropWhile Text.isBlank with
  | nil => simp [Ne.symm hmark]
  | cons c text =>
      simp only [List.cons_append]
      split <;> rfl

theorem dropHead?_quote {head : List Char} (hhead : '"' ∉ head) (text rest : List Char) :
    Text.dropHead? head (text ++ '"' :: rest) =
      (Text.dropHead? head text).map (· ++ '"' :: rest) := by
  cases h : Text.dropHead? head text with
  | some r =>
      rw [Text.dropHead?_eq_some_iff.mp h, List.append_assoc, Text.dropHead?_append,
        Option.map_some]
  | none =>
      rw [Option.map_none, Option.eq_none_iff_forall_ne_some]
      intro r hr
      have htext := Text.dropHead?_eq_some_iff.mp hr
      rcases List.append_eq_append_iff.mp htext with ⟨more, rfl, hmore⟩ | ⟨more, rfl, _⟩
      · cases more with
        | nil =>
            have hwhole := Text.dropHead?_append (text ++ []) []
            rw [List.append_nil (text ++ []), List.append_nil] at hwhole
            rw [List.append_nil, hwhole] at h
            cases h
        | cons d more =>
            obtain ⟨rfl, _⟩ := List.cons.inj hmore
            exact hhead (List.mem_append_right text List.mem_cons_self)
      · rw [Text.dropHead?_append] at h
        cases h

theorem behindKeyword?_quote {keyword : String} (hkeyword : '"' ∉ keyword.toList)
    (text rest : List Char) :
    behindKeyword? keyword (text ++ '"' :: rest) =
      (behindKeyword? keyword text).map (· ++ '"' :: rest) := by
  unfold behindKeyword?
  rw [dropWhile_append_cons (by decide), dropHead?_quote hkeyword]

/-! ## Heads of declarations -/

theorem packageHere?_quote (text rest : List Char) :
    packageHere? (text ++ '"' :: rest) = packageHere? text := by
  have hkeyword : '"' ∉ "package".toList := by decide
  have hpart : isPackagePart '"' = false := by decide
  have hmark : ';' ≠ '"' := by decide
  simp only [packageHere?, behindKeyword?_quote hkeyword, Option.bind_eq_bind, Option.bind_map,
    Function.comp_def, behindBlanks?_quote, takeWhile_append_cons hpart,
    dropWhile_append_cons hpart, behindMark?_quote hmark]

theorem serviceHere?_quote (text rest : List Char) :
    serviceHere? (text ++ '"' :: rest) =
      (serviceHere? text).map fun r => (r.1, r.2 ++ '"' :: rest) := by
  have hkeyword : '"' ∉ "service".toList := by decide
  have hmark : '{' ≠ '"' := by decide
  simp only [serviceHere?, dropHead?_quote hkeyword, Option.bind_eq_bind, Option.bind_map,
    Function.comp_def, behindBlanks?_quote, word?_quote, behindMark?_quote hmark, Option.map_bind]
  rfl

/-- The name of a method that is declared at the front of the text, and the text behind its first
parenthesis. -/
def methodHead? (text : List Char) : Option (List Char × List Char) := do
  let rest ← Text.dropHead? "rpc".toList text
  let rest ← behindBlanks? rest
  let (name, rest) ← word? rest
  let inside ← behindMark? '(' rest
  return (name, inside)

/-- The text behind the second parenthesis of a method. -/
def returnsHead? (text : List Char) : Option (List Char) := do
  let rest ← behindKeyword? "returns" text
  behindMark? '(' rest

/-- What stands before the next closing parenthesis, which must not be empty, and the text behind
it. -/
def enclosed? (text : List Char) : Option (List Char × List Char) :=
  if (text.takeWhile (· != ')')).isEmpty then none
  else
    match text.dropWhile (· != ')') with
    | _ :: after => some (text.takeWhile (· != ')'), after)
    | [] => none

theorem inParentheses?_eq (text : List Char) :
    inParentheses? text = (behindMark? '(' text).bind enclosed? := rfl

/-- A method is read in four parts, of which the two types may hold anything. -/
theorem methodHere?_eq (text : List Char) :
    methodHere? text =
      (methodHead? text).bind fun head =>
        (enclosed? head.2).bind fun input =>
          (returnsHead? input.2).bind fun rest =>
            (enclosed? rest).map fun output => (⟨head.1, input.1, output.1⟩, output.2) := by
  simp only [methodHere?, methodHead?, returnsHead?, inParentheses?_eq, Option.bind_eq_bind,
    Option.bind_assoc, Option.map_eq_bind, Option.pure_def, Option.bind_some]
  rfl

theorem methodHead?_quote (text rest : List Char) :
    methodHead? (text ++ '"' :: rest) =
      (methodHead? text).map fun r => (r.1, r.2 ++ '"' :: rest) := by
  have hkeyword : '"' ∉ "rpc".toList := by decide
  have hmark : '(' ≠ '"' := by decide
  simp only [methodHead?, dropHead?_quote hkeyword, Option.bind_eq_bind, Option.bind_map,
    Function.comp_def, behindBlanks?_quote, word?_quote, behindMark?_quote hmark, Option.map_bind]
  rfl

theorem returnsHead?_quote (text rest : List Char) :
    returnsHead? (text ++ '"' :: rest) = (returnsHead? text).map (· ++ '"' :: rest) := by
  have hkeyword : '"' ∉ "returns".toList := by decide
  have hmark : '(' ≠ '"' := by decide
  simp only [returnsHead?, behindKeyword?_quote hkeyword, Option.bind_eq_bind, Option.bind_map,
    Function.comp_def, behindMark?_quote hmark, Option.map_bind]

theorem methodHead?_suffix {text name inside : List Char}
    (h : methodHead? text = some (name, inside)) : '(' :: inside <:+ text := by
  simp only [methodHead?, Option.bind_eq_bind, Option.bind_eq_some_iff] at h
  obtain ⟨r₁, hkeyword, r₂, hblanks, ⟨word, r₃⟩, hword, r₄, hmark, hresult⟩ := h
  obtain ⟨rfl, rfl⟩ := Prod.mk.inj (Option.some.inj hresult)
  obtain ⟨b, rfl, _⟩ := behindBlanks?_eq_some hblanks
  obtain ⟨rfl, _⟩ := word?_eq_some hword
  obtain ⟨b', rfl, _⟩ := behindMark?_eq_some hmark
  rw [Text.dropHead?_eq_some_iff.mp hkeyword]
  exact ⟨"rpc".toList ++ (b ++ (word ++ b')), by simp⟩

theorem returnsHead?_suffix {text inside : List Char} (h : returnsHead? text = some inside) :
    '(' :: inside <:+ text := by
  obtain ⟨rest, hkeyword, hmark⟩ := Option.bind_eq_some_iff.mp h
  obtain ⟨b, rfl, _⟩ := behindKeyword?_eq_some hkeyword
  obtain ⟨b', rfl, _⟩ := behindMark?_eq_some hmark
  exact ⟨b ++ ("returns".toList ++ b'), by simp⟩

theorem enclosed?_suffix {text inside after : List Char}
    (h : enclosed? text = some (inside, after)) : after <:+ text := by
  unfold enclosed? at h
  split at h
  · cases h
  · split at h
    · next c rest hdrop =>
      obtain ⟨rfl, rfl⟩ := Prod.mk.inj (Option.some.inj h)
      have hsuffix := List.dropWhile_suffix (l := text) (· != ')')
      rw [hdrop] at hsuffix
      exact (List.suffix_cons c rest).trans hsuffix
    · cases h

/-- A method takes at least its first parenthesis. -/
theorem methodHere?_length {text after : List Char} {s : Signature}
    (h : methodHere? text = some (s, after)) : after.length < text.length := by
  rw [methodHere?_eq] at h
  obtain ⟨head, hhead, h⟩ := Option.bind_eq_some_iff.mp h
  obtain ⟨input, hinput, h⟩ := Option.bind_eq_some_iff.mp h
  obtain ⟨rest, hrest, h⟩ := Option.bind_eq_some_iff.mp h
  obtain ⟨output, houtput, h⟩ := Option.map_eq_some_iff.mp h
  obtain ⟨rfl, rfl⟩ := Prod.mk.inj h
  have h₁ := (methodHead?_suffix hhead).length_le
  have h₂ := (enclosed?_suffix hinput).length_le
  have h₃ := (returnsHead?_suffix hrest).length_le
  have h₄ := (enclosed?_suffix houtput).length_le
  simp only [List.length_cons] at h₁ h₃
  omega

/-! ## Searches -/

/-- A package is declared before a quote or behind it. -/
theorem packageFrom_quote (atLineStart : Bool) (text rest : List Char) :
    packageFrom atLineStart (text ++ '"' :: rest) =
      if packageFrom atLineStart text = [] then packageFrom false rest
      else packageFrom atLineStart text := by
  induction text generalizing atLineStart with
  | nil =>
      have hhere : packageHere? ('"' :: rest) = none := packageHere?_quote [] rest
      simp [packageFrom, hhere]
  | cons c text ih =>
      have hhere := packageHere?_quote (c :: text) rest
      rw [List.cons_append] at hhere ⊢
      rw [packageFrom, packageFrom, hhere]
      split
      · next name hname =>
        have hne : name ≠ [] := by
          split at hname
          · obtain ⟨_, _, _, _, _, hne, _⟩ := packageHere?_eq_some hname
            exact hne
          · cases hname
        rw [if_neg hne]
      · exact ih _

/-- The next service has its head before a quote or behind it. -/
theorem nextService?_quote (before : Option Char) (text rest : List Char) :
    nextService? before (text ++ '"' :: rest) =
      ((nextService? before text).map fun r => (r.1, r.2 ++ '"' :: rest)).or
        (nextService? (some '"') rest) := by
  induction text generalizing before with
  | nil =>
      have hhere : serviceHere? ('"' :: rest) = none := serviceHere?_quote [] rest
      simp [nextService?, hhere]
  | cons c text ih =>
      have hhere := serviceHere?_quote (c :: text) rest
      rw [List.cons_append] at hhere ⊢
      rw [nextService?, nextService?, hhere]
      cases before.any Text.isWord with
      | true => exact ih _
      | false =>
          cases serviceHere? (c :: text) with
          | some found => rfl
          | none => exact ih _

/-- A method is declared, at least up to its first parenthesis, at a word start of the text, where
`before` is the character before it. -/
def opensMethod (before : Option Char) : List Char → Bool
  | [] => false
  | c :: rest =>
      (!before.any Text.isWord && (methodHead? (c :: rest)).isSome) || opensMethod (some c) rest

/-- The methods of a text, where `before` is the character before it. -/
def methodsFrom (before : Option Char) (text : List Char) : List Signature :=
  methodsWithin text.length before text

theorem methodsWithin_eq {fuel : Nat} {text : List Char} (before : Option Char)
    (h : text.length ≤ fuel) : methodsWithin fuel before text = methodsFrom before text := by
  -- both bounds are large enough, so compare any two of them
  have hany : ∀ (a b : Nat) (before : Option Char) (text : List Char), text.length ≤ a →
      text.length ≤ b → methodsWithin a before text = methodsWithin b before text := by
    intro a
    induction a with
    | zero =>
        intro b before text ha _
        obtain rfl := List.length_eq_zero_iff.mp (Nat.le_zero.mp ha)
        cases b <;> rfl
    | succ a ih =>
        intro b before text ha hb
        cases text with
        | nil => cases b <;> rfl
        | cons c rest =>
            cases b with
            | zero => simp at hb
            | succ b =>
                simp only [List.length_cons] at ha hb
                simp only [methodsWithin]
                split
                · next s after hhere =>
                  have hlength : after.length < rest.length + 1 := by
                    split at hhere
                    · cases hhere
                    · exact methodHere?_length hhere
                  rw [ih b _ after (by omega) (by omega)]
                · exact ih b _ rest (by omega) (by omega)
  exact hany fuel text.length before text h (Nat.le_refl _)

theorem methodsFrom_cons (before : Option Char) (c : Char) (rest : List Char) :
    methodsFrom before (c :: rest) =
      match if before.any Text.isWord then none else methodHere? (c :: rest) with
      | some (s, after) => s :: methodsFrom (some ')') after
      | none => methodsFrom (some c) rest := by
  have hwithin : methodsFrom before (c :: rest) =
      methodsWithin (rest.length + 1) before (c :: rest) := rfl
  rw [hwithin, methodsWithin]
  generalize hhere : (if before.any Text.isWord then none else methodHere? (c :: rest)) = found
  cases found with
  | none => exact methodsWithin_eq _ (Nat.le_refl _)
  | some r =>
      have hlength : r.2.length < rest.length + 1 := by
        split at hhere
        · cases hhere
        · exact methodHere?_length hhere
      exact congrArg (r.1 :: ·) (methodsWithin_eq _ (by omega))

/-- A search for methods passes over a literal in which no method opens. -/
theorem methodsFrom_quote {text : List Char} (before : Option Char)
    (h : opensMethod before text = false) (rest : List Char) :
    methodsFrom before (text ++ '"' :: rest) = methodsFrom (some '"') rest := by
  induction text generalizing before with
  | nil =>
      have hhere : methodHere? ('"' :: rest) = none := by
        have hhead : methodHead? ('"' :: rest) = none := methodHead?_quote [] rest
        rw [methodHere?_eq, hhead, Option.bind_none]
      rw [List.nil_append, methodsFrom_cons, hhere]
      simp
  | cons c text ih =>
      simp only [opensMethod, Bool.or_eq_false_iff, Bool.and_eq_false_iff, Bool.not_eq_eq_eq_not,
        Bool.not_false, Option.isSome_eq_false_iff, Option.isNone_iff_eq_none] at h
      have hhere : (if before.any Text.isWord then none
          else methodHere? (c :: (text ++ '"' :: rest))) = none := by
        rcases h.1 with hword | hhead
        · rw [if_pos hword]
        · have hquote := methodHead?_quote (c :: text) rest
          rw [hhead, List.cons_append] at hquote
          rw [methodHere?_eq, hquote]
          simp
      rw [List.cons_append, methodsFrom_cons, hhere]
      exact ih _ h.2

/-! ## Types -/

theorem quote_mem_behindStream {text rest : List Char} (h : '"' ∈ text)
    (hstream : behindStream? text = some rest) : '"' ∈ rest := by
  simp only [behindStream?] at hstream
  split at hstream
  · next hhead =>
    simp only [Bool.and_eq_true, beq_iff_eq, List.all_eq_true] at hhead
    obtain ⟨hlength, hletters⟩ := hhead
    generalize hkeyword : "stream".toList = keyword at *
    -- no letter of the qualifier is a quote
    have hkeep : '"' ∉ text.take keyword.length := by
      intro hmem
      rw [← List.map_snd_zip (Nat.le_of_eq hlength), List.mem_map] at hmem
      obtain ⟨⟨k, c⟩, hpair, rfl⟩ := hmem
      have hk : k ∈ "stream".toList := hkeyword ▸ (List.of_mem_zip hpair).1
      have hnone : "stream".toList.all (fun k => !isLetter k '"') = true := by decide
      have hletter := List.all_eq_true.mp hnone k hk
      rw [hletters _ hpair] at hletter
      cases hletter
    rw [← List.take_append_drop keyword.length text, List.mem_append] at h
    have hdrop := h.resolve_left hkeep
    unfold behindBlanks? at hstream
    split at hstream
    · next c more heq =>
      split at hstream
      · next hblank =>
        rw [heq] at hdrop
        obtain rfl := Option.some.inj hstream
        have hquote : Text.isBlank '"' = false := by decide
        apply Text.mem_dropWhile hquote
        apply (List.mem_cons.mp hdrop).resolve_left
        rintro rfl
        rw [hquote] at hblank
        cases hblank
      · cases hstream
    · cases hstream
  · cases hstream

/-- A quote in a type stays in its name. -/
theorem quote_mem_typeName {raw : List Char} (h : '"' ∈ raw) : '"' ∈ typeName raw := by
  have hquote : Text.isBlank '"' = false := by decide
  have htrim : '"' ∈ Text.trim raw := Text.mem_trim hquote h
  have hname : '"' ∈ (behindStream? (Text.trim raw)).getD (Text.trim raw) := by
    cases hstream : behindStream? (Text.trim raw) with
    | none => exact htrim
    | some rest => exact quote_mem_behindStream htrim hstream
  obtain ⟨word, hword, hin⟩ := Text.mem_wordsFrom hquote [] (.inr hname)
  exact Text.mem_intercalate hin hword

end ApiAtlas.Interface
