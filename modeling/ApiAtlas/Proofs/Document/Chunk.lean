import ApiAtlas.Proofs.Document.Trimming
set_option autoImplicit false

/-!
# Document: definitions as slices of their own

A definition that is a slice of its own is read from the slice as it is read in the document, and so
it is when another text is put behind it.  Which slices are such is a condition on the document: it
has as many slices as definitions, and its fragments start with the word for them.
-/

namespace ApiAtlas.Document

/-- Every fragment starts with the word `fragment`, not with a longer one. -/
def SpellsFragments (ds : List (Definition × List Char)) : Prop :=
  ∀ d ∈ ds, d.1.isFragment = true → leadingKeyword d.2 = "fragment".toList

instance (ds : List (Definition × List Char)) : Decidable (SpellsFragments ds) :=
  inferInstanceAs
    (Decidable (∀ d ∈ ds, d.1.isFragment = true → leadingKeyword d.2 = "fragment".toList))

/-- The document can be read slice by slice: each definition is one slice, and fragments show that
they are fragments. -/
def Separable (text : List Char) (ds : List (Definition × List Char)) : Prop :=
  (slices text).1.length = ds.length ∧ SpellsFragments ds

instance (text : List Char) (ds : List (Definition × List Char)) : Decidable (Separable text ds) :=
  inferInstanceAs (Decidable ((slices text).1.length = ds.length ∧ SpellsFragments ds))

/-- The slice of a definition, read with any text behind it. -/
structure Chunk (x : List Char) (a : Definition) (p : List Char) : Prop where
  ne_nil : p ≠ []
  leadingKeyword_eq : leadingKeyword p = leadingKeyword x
  /-- The definition comes first, whatever follows. -/
  defines : ∀ (z : List Char) (ds : List (Definition × List Char)),
    Defines (4 * (p ++ z).length + 8) z ds →
    Defines (4 * (p ++ z).length + 8) (p ++ z) ((a, skip (p ++ z)) :: ds)

/-- A definition up to its brace, without the blanks around it, is a chunk. -/
theorem chunk_of_begins {fuel : Nat} {x y u : List Char} {a : Definition} {gs ls : List Lexeme}
    (hx : Faithful x) (hfuel : 3 * x.length + 1 ≤ fuel)
    (hbody : Rule.body fuel (skip x) = some (a, y)) (h : Begins x gs ls u y) :
    Chunk x a (Text.trim (Slice.text ((gs ++ ls) ++ [closingBrace]))) := by
  have hlexemes : lexemes x = ((gs ++ ls) ++ [closingBrace]) ++ lexemes y := by
    rw [h.lexemes_append, List.append_assoc _ [closingBrace], List.singleton_append]
  have hcontent : ((gs ++ ls) ++ [closingBrace]).any Lexeme.isContent = true := by
    rw [List.any_append, Bool.or_eq_true]
    exact Or.inr rfl
  obtain ⟨p, hp⟩ := piece_of_content hx (not_isBlank_of_body hbody) hlexemes hcontent
  rw [hp.trim_of_closingBrace]
  have hskip : skip (p ++ y) = u ++ '}' :: y := by
    rw [← h.skip_eq, hp.skip_eq, text_lexemes]
  obtain ⟨c, rest, hc, _⟩ := hp.head_eq
  refine ⟨by simp [hc], hp.leadingKeyword_eq hlexemes hcontent, ?_⟩
  intro z ds hds
  have hlength := length_skipFrom false x
  have hlength' := length_skipFrom false (p ++ z)
  have hfaithful := (walk_skip 0 hx).faithful hx
  rw [← skip, h.skip_eq] at hlength
  rw [← skip, skip_local hskip z] at hlength'
  rw [h.skip_eq] at hbody hfaithful
  refine .more ?_ hds
  rw [skip_local hskip z]
  exact Rule.body_local hfaithful (by omega) hbody z (by omega)

/-- A chunk is a document of one definition. -/
theorem Chunk.document {x p : List Char} {a : Definition} (h : Chunk x a p) :
    Rule.document p = some [(a, skip p)] := by
  have hdefines := h.defines [] [] (.done rfl)
  rw [List.append_nil] at hdefines
  exact hdefines.document (by simp) (by simp)

/-! ## Keywords of chunks -/

/-- The keyword of a text that starts with a definition is that of the definition, or there is
none. -/
theorem leadingKeyword_cases {x : List Char} (hx : Faithful x) :
    leadingKeyword x = [] ∨ leadingKeyword x = leadingKeyword (skip x) := by
  by_cases hnil : leadingKeyword x = []
  · exact Or.inl hnil
  · exact Or.inr (leadingKeyword_skip hx hnil).symm

/-- A text that starts with a definition does not look like a definition of types. -/
theorem not_typeSystem_of_body {fuel : Nat} {x y : List Char} {a : Definition} (hx : Faithful x)
    (hbody : Rule.body fuel (skip x) = some (a, y)) :
    typeSystemKeywords.contains (String.ofList (leadingKeyword x)) = false := by
  rcases leadingKeyword_cases hx with hnil | hsame
  · rw [hnil]
    decide
  · rw [hsame]
    exact (leadingKeyword_of_body hbody).1

/-- If no slice ends before the brace, a fragment with its keyword keeps it. -/
theorem Begins.leadingKeyword_fragment {fuel : Nat} {x y u : List Char} {f : Fragment}
    {gs ls : List Lexeme} (h : Begins x gs ls u y)
    (hbody : Rule.body fuel (skip x) = some (.fragment f, y))
    (hcut : (cutFrom Cut.start (gs ++ ls)).1 = [])
    (hkeyword : leadingKeyword (skip x) = "fragment".toList) :
    leadingKeyword x = "fragment".toList := by
  rcases keywordOf_ignored h.ignored (lexemes (skip x)) with ⟨_, hsame⟩ | ⟨hcontent, _⟩
  · rw [leadingKeyword_eq, h.lexemes_eq, hsame]
    exact hkeyword
  · rcases Rule.body_cases hbody with ⟨op, heq, _⟩ | ⟨f', _, hf⟩
    · exact absurd heq (by simp)
    · obtain ⟨rest, hrest⟩ := Rule.fragment_starts hf
      have hword : lexemes (skip x) = ⟨.word, "fragment".toList ++ rest.takeWhile isWordPart⟩ ::
          lexemes (rest.dropWhile isWordPart) := by
        rw [hrest]
        exact lexemes_word (by decide) rest
      rw [leadingKeyword_eq, hword] at hkeyword
      change "fragment".toList ++ rest.takeWhile isWordPart = _ at hkeyword
      rw [hkeyword, h.lexemes_skip_eq] at hword
      cases ls with
      | nil => exact absurd (List.cons.inj hword).1 (by decide)
      | cons l ls =>
          obtain ⟨rfl, _⟩ := List.cons.inj hword
          exact absurd hcut (cutFrom_ne_nil_of_content h.ignored hcontent rfl)

end ApiAtlas.Document
