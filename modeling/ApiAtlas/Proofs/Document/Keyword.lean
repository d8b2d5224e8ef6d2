import ApiAtlas.Proofs.Document.Pieces
set_option autoImplicit false

/-!
# Document: the keyword of a piece

The keyword of a piece decides how it is read.  It is the first lexeme with content, so it does not
depend on where the piece ends.  A definition that the grammar reads starts with a brace or with a
word that has the keyword of its kind in front; such a word is never a keyword of type definitions.
-/

namespace ApiAtlas.Document

/-- The keyword of a run of lexemes. -/
def keywordOf (ls : List Lexeme) : List Char :=
  match ls.find? Lexeme.isContent with
  | some l => if l.kind == .word || l.text == ['{'] then l.text else []
  | none => []

theorem leadingKeyword_eq (text : List Char) : leadingKeyword text = keywordOf (lexemes text) := rfl

/-- Behind content nothing matters. -/
theorem keywordOf_append {ls : List Lexeme} (h : ls.any Lexeme.isContent = true)
    (ms : List Lexeme) : keywordOf (ls ++ ms) = keywordOf ls := by
  have hfound : (ls.find? Lexeme.isContent).isSome = true := by
    rw [List.find?_isSome]
    simpa using h
  obtain ⟨l, hl⟩ := Option.isSome_iff_exists.mp hfound
  simp [keywordOf, List.find?_append, hl]

/-- Before content nothing matters. -/
theorem keywordOf_append_left {ls : List Lexeme} (h : ls.any Lexeme.isContent = false)
    (ms : List Lexeme) : keywordOf (ls ++ ms) = keywordOf ms := by
  have hnone : ls.find? Lexeme.isContent = none := by
    rw [List.find?_eq_none]
    simpa using h
  simp [keywordOf, List.find?_append, hnone]

theorem keywordOf_eq_nil {ls : List Lexeme} (h : ls.any Lexeme.isContent = false) :
    keywordOf ls = [] := by
  have hnil := keywordOf_append_left h []
  rwa [List.append_nil] at hnil

theorem keywordOf_append_of_ne_nil {ls : List Lexeme} (h : keywordOf ls ≠ [])
    (ms : List Lexeme) : keywordOf (ls ++ ms) = keywordOf ls := by
  cases hcontent : ls.any Lexeme.isContent with
  | true => exact keywordOf_append hcontent ms
  | false => exact absurd (keywordOf_eq_nil hcontent) h

/-- Blanks and comments in front leave the keyword as it is, unless a byte order mark hides it. -/
theorem keywordOf_ignored {gs : List Lexeme} (hgs : ∀ l ∈ gs, l.isIgnored = true)
    (ls : List Lexeme) :
    (gs.any Lexeme.isContent = false ∧ keywordOf (gs ++ ls) = keywordOf ls) ∨
      (gs.any Lexeme.isContent = true ∧ keywordOf (gs ++ ls) = []) := by
  cases hcontent : gs.any Lexeme.isContent with
  | false => exact Or.inl ⟨rfl, keywordOf_append_left hcontent ls⟩
  | true =>
      refine Or.inr ⟨rfl, ?_⟩
      rw [keywordOf_append hcontent, keywordOf]
      cases hfind : gs.find? Lexeme.isContent with
      | none => rfl
      | some l =>
          have hignored := hgs l (List.mem_of_find?_eq_some hfind)
          have hl : l.isContent = true := List.find?_some hfind
          simp only [Lexeme.isIgnored, Bool.or_eq_true, beq_iff_eq] at hignored
          rcases hignored with (hkind | hkind) | rfl
          · simp [Lexeme.isContent, hkind] at hl
          · simp [Lexeme.isContent, hkind] at hl
          · rfl

/-- What the grammar drops in front of a text has no part in its keyword. -/
theorem leadingKeyword_skip {x : List Char} (hx : Faithful x) (h : leadingKeyword x ≠ []) :
    leadingKeyword (skip x) = leadingKeyword x := by
  obtain ⟨gs, hgs, hignored⟩ := lexemes_skip hx
  rw [leadingKeyword_eq, hgs] at h
  rw [leadingKeyword_eq, leadingKeyword_eq, hgs]
  rcases keywordOf_ignored hignored (lexemes (skip x)) with ⟨_, hsame⟩ | ⟨_, hnil⟩
  · exact hsame.symm
  · exact absurd hnil h

/-! ## How definitions start -/

theorem Rule.literal_eq_some {e : String} {s : List Char} {r : Unit × List Char}
    (h : Rule.literal e s = some r) : s = e.toList ++ r.2 := by
  simp only [Rule.literal, Text.dropHead?, Option.map_eq_some_iff] at h
  obtain ⟨rest, hrest, rfl⟩ := h
  exact (List.append_eq_of_isPrefixOf?_eq_some hrest).symm

/-- An operation starts with a brace or with the keyword of its kind. -/
theorem Rule.operation_starts {fuel : Nat} {s : List Char} {r : Operation × List Char}
    (h : Rule.operation fuel s = some r) :
    (∃ rest, s = '{' :: rest) ∨
      ∃ e ∈ ["query", "mutation", "subscription"], ∃ rest, s = e.toList ++ rest := by
  rw [Rule.operation_eq, Option.or_eq_some_iff] at h
  rcases h with h | ⟨_, h⟩
  · rw [Rule.keywordOperation_eq, Option.bind_eq_some_iff] at h
    obtain ⟨kind, hkind, _⟩ := h
    simp only [Rule.operationKind_eq, Option.or_eq_some_iff, Option.map_eq_some_iff] at hkind
    refine Or.inr ?_
    rcases hkind with ⟨r, hr, _⟩ | ⟨_, ⟨r, hr, _⟩ | ⟨_, r, hr, _⟩⟩
    · exact ⟨"query", by simp, r.2, Rule.literal_eq_some hr⟩
    · exact ⟨"mutation", by simp, r.2, Rule.literal_eq_some hr⟩
    · exact ⟨"subscription", by simp, r.2, Rule.literal_eq_some hr⟩
  · refine Or.inl ?_
    obtain ⟨r', hr', _⟩ := Option.map_eq_some_iff.mp h
    cases fuel with
    | zero => simp [Rule.selectionSet] at hr'
    | succ fuel =>
        rw [Rule.selectionSet_succ] at hr'
        refine Classical.byContradiction fun hs => ?_
        rw [Rule.between_of_ne _ _ fun rest hrest => hs ⟨rest, hrest⟩] at hr'
        exact absurd hr' (by simp)

theorem Rule.fragment_starts {fuel : Nat} {s : List Char} {r : Fragment × List Char}
    (h : Rule.fragment fuel s = some r) : ∃ rest, s = "fragment".toList ++ rest := by
  simp only [Rule.fragment, Option.bind_eq_bind, Option.bind_eq_some_iff] at h
  obtain ⟨r', hliteral, _⟩ := h
  exact ⟨r'.2, Rule.literal_eq_some hliteral⟩

/-- A letter and more letters and digits behind it. -/
def isWord : List Char → Bool
  | [] => false
  | c :: cs => isWordStart c && cs.all isWordPart

/-- A word in front of a text is a lexeme with the letters that go on with it. -/
theorem lexemes_word {word : List Char} (hword : isWord word = true) (rest : List Char) :
    lexemes (word ++ rest) =
      ⟨.word, word ++ rest.takeWhile isWordPart⟩ :: lexemes (rest.dropWhile isWordPart) := by
  cases word with
  | nil => exact absurd hword (by simp [isWord])
  | cons c cs =>
      simp only [isWord, Bool.and_eq_true, List.all_eq_true] at hword
      obtain ⟨hc, hcs⟩ := hword
      rw [List.cons_append, lexemes_cons, firstLexeme_word hc, List.takeWhile_append_of_pos hcs,
        List.dropWhile_append_of_pos hcs, List.cons_append]

theorem keywordOf_word {word : List Char} (hword : isWord word = true) (rest : List Char) :
    keywordOf (lexemes (word ++ rest)) = word ++ rest.takeWhile isWordPart := by
  rw [lexemes_word hword]
  rfl

/-- The keyword of an operation is its brace or a word that starts with a keyword of operations. -/
theorem keywordOf_operation {fuel : Nat} {s : List Char} {r : Operation × List Char}
    (h : Rule.operation fuel s = some r) :
    keywordOf (lexemes s) = ['{'] ∨
      ∃ e ∈ ["query", "mutation", "subscription"], e.toList <+: keywordOf (lexemes s) := by
  rcases Rule.operation_starts h with ⟨rest, rfl⟩ | ⟨e, he, rest, rfl⟩
  · exact Or.inl rfl
  · have hword : ∀ e ∈ ["query", "mutation", "subscription"], isWord e.toList = true := by decide
    refine Or.inr ⟨e, he, rest.takeWhile isWordPart, ?_⟩
    exact (keywordOf_word (hword e he) rest).symm

/-- The keyword of a fragment is a word that starts with `fragment`. -/
theorem keywordOf_fragment {fuel : Nat} {s : List Char} {r : Fragment × List Char}
    (h : Rule.fragment fuel s = some r) : "fragment".toList <+: keywordOf (lexemes s) := by
  obtain ⟨rest, rfl⟩ := Rule.fragment_starts h
  exact ⟨rest.takeWhile isWordPart, (keywordOf_word (by decide) rest).symm⟩

/-- No keyword of type definitions starts with another keyword of definitions. -/
theorem typeSystemKeywords_contains {e : String} {keyword : List Char}
    (he : e ∈ ["query", "mutation", "subscription", "fragment"]) (h : e.toList <+: keyword) :
    typeSystemKeywords.contains (String.ofList keyword) = false := by
  rw [List.contains_eq_mem, decide_eq_false_iff_not]
  intro hmem
  have hnone : ∀ k ∈ typeSystemKeywords,
      ∀ e ∈ ["query", "mutation", "subscription", "fragment"],
        e.toList.isPrefixOf k.toList = false := by decide
  have hprefix := hnone _ hmem e he
  rw [String.toList_ofList, List.isPrefixOf_iff_prefix.mpr h] at hprefix
  exact absurd hprefix (by simp)

/-! ## Definitions and their keywords -/

/-- The definition is a fragment. -/
def Definition.isFragment : Definition → Bool
  | .operation _ => false
  | .fragment _ => true

theorem Rule.body_cases {fuel : Nat} {s y : List Char} {a : Definition}
    (h : Rule.body fuel s = some (a, y)) :
    (∃ op, a = .operation op ∧ Rule.operation fuel s = some (op, y)) ∨
      ∃ f, a = .fragment f ∧ Rule.fragment fuel s = some (f, y) := by
  rw [Rule.body, Option.or_eq_some_iff] at h
  rcases h with h | ⟨_, h⟩
  · obtain ⟨⟨op, y'⟩, hop, heq⟩ := Option.map_eq_some_iff.mp h
    obtain ⟨rfl, rfl⟩ := Prod.mk.inj heq
    exact Or.inl ⟨op, rfl, hop⟩
  · obtain ⟨⟨f, y'⟩, hf, heq⟩ := Option.map_eq_some_iff.mp h
    obtain ⟨rfl, rfl⟩ := Prod.mk.inj heq
    exact Or.inr ⟨f, rfl, hf⟩

/-- A definition starts with no blank. -/
theorem not_isBlank_of_body {fuel : Nat} {s y : List Char} {a : Definition}
    (h : Rule.body fuel s = some (a, y)) : ∀ c ∈ s.head?, Text.isBlank c = false := by
  intro c hc
  rcases Rule.body_cases h with ⟨op, _, hop⟩ | ⟨f, _, hf⟩
  · rcases Rule.operation_starts hop with ⟨rest, rfl⟩ | ⟨e, he, rest, rfl⟩
    · obtain rfl : '{' = c := by simpa using hc
      decide
    · simp only [List.mem_cons, List.not_mem_nil, or_false] at he
      rcases he with rfl | rfl | rfl
      · obtain rfl : 'q' = c := by simpa using hc
        decide
      · obtain rfl : 'm' = c := by simpa using hc
        decide
      · obtain rfl : 's' = c := by simpa using hc
        decide
  · obtain ⟨rest, rfl⟩ := Rule.fragment_starts hf
    obtain rfl : 'f' = c := by simpa using hc
    decide

/-- The keyword of a definition is none of type definitions, and that of an operation is not the
one of fragments. -/
theorem leadingKeyword_of_body {fuel : Nat} {s y : List Char} {a : Definition}
    (h : Rule.body fuel s = some (a, y)) :
    typeSystemKeywords.contains (String.ofList (leadingKeyword s)) = false ∧
      (leadingKeyword s = "fragment".toList → a.isFragment = true) := by
  rcases Rule.body_cases h with ⟨op, rfl, hop⟩ | ⟨f, rfl, hf⟩
  · rcases keywordOf_operation hop with hbrace | ⟨e, he, hprefix⟩
    · rw [leadingKeyword_eq, hbrace]
      exact ⟨by decide, fun hfragment => absurd hfragment (by decide)⟩
    · refine ⟨typeSystemKeywords_contains (List.mem_append_left ["fragment"] he) hprefix, ?_⟩
      intro hfragment
      rw [← leadingKeyword_eq, hfragment] at hprefix
      have hnone : ∀ e ∈ ["query", "mutation", "subscription"],
          e.toList.isPrefixOf "fragment".toList = false := by decide
      have hfalse := hnone e he
      rw [List.isPrefixOf_iff_prefix.mpr hprefix] at hfalse
      exact absurd hfalse (by simp)
  · exact ⟨typeSystemKeywords_contains (by simp) (keywordOf_fragment hf), fun _ => rfl⟩

theorem Cut.step_word {s : Cut} {word : List Char} (h : s.startsDefinition word = true) :
    (s.step ⟨.word, word⟩).1 = some s.held.reverse := by
  simp [Cut.step, h]

/-- If a byte order mark stands before the word `fragment`, a slice ends between them. -/
theorem cutFrom_ne_nil_of_content {gs ls rest : List Lexeme}
    (hgs : ∀ l ∈ gs, l.isIgnored = true) (hcontent : gs.any Lexeme.isContent = true)
    (hls : ls = ⟨.word, "fragment".toList⟩ :: rest) : (cutFrom Cut.start (gs ++ ls)).1 ≠ [] := by
  have hkeyword : (definitionKeywords.any fun k => k.toList == "fragment".toList) = true := by
    decide
  have hstarts : ∀ held, Cut.startsDefinition { Cut.start with held, content := true }
      "fragment".toList = true := by
    intro held
    rw [Cut.startsDefinition, hkeyword]
    rfl
  rw [cutFrom_append, cutFrom_ignored (s := Cut.start) rfl hgs, hcontent, Bool.or_true, hls,
    cutFrom_cons, Cut.step_word (hstarts _)]
  exact List.cons_ne_nil _ _

end ApiAtlas.Document