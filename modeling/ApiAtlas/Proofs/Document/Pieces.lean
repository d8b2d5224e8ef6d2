import ApiAtlas.Proofs.Document.Cutting
import ApiAtlas.Proofs.Document.Locality.Definition
set_option autoImplicit false

/-!
# Document: accepted texts in pieces

A text that the grammar accepts is a chain of definitions.  Each of them ends with a brace at which
the cutting ends a slice, so a text without such a slice is no document.
-/

namespace ApiAtlas.Document

/-! ## Chains of definitions -/

/-- The text is a chain of definitions, with blanks and comments before, between and behind. -/
inductive Defines (fuel : Nat) : List Char → List (Definition × List Char) → Prop
  | done {x : List Char} : skip x = [] → Defines fuel x []
  | more {x y : List Char} {a : Definition} {ds : List (Definition × List Char)} :
      Rule.body fuel (skip x) = some (a, y) → Defines fuel y ds →
      Defines fuel x ((a, skip x) :: ds)

theorem skipFrom_skipFrom (comment : Bool) (text : List Char) :
    skip (skipFrom comment text) = skipFrom comment text := by
  fun_induction skipFrom comment text with
  | case1 => rfl
  | case2 c text hend ih => exact ih
  | case3 c text hend ih => exact ih
  | case4 c text hgap ih => exact ih
  | case5 c text hgap hhash ih => exact ih
  | case6 c text hgap hhash =>
      exact skip_of_not_isGap (by simpa using hgap) (by simpa using hhash) text

theorem skip_skip (text : List Char) : skip (skip text) = skip text := skipFrom_skipFrom false text

/-- Repeated definitions that reach the end of the text are a chain. -/
theorem defines_of_many {fuel : Nat} (n : Nat) {x rest : List Char}
    {ds : List (Definition × List Char)}
    (h : Rule.many (Rule.definition fuel) n (skip x) = some (ds, rest)) (hrest : skip rest = []) :
    Defines fuel x ds := by
  induction n generalizing x ds rest with
  | zero =>
      simp only [Rule.many, Option.some.injEq, Prod.mk.injEq] at h
      obtain ⟨rfl, rfl⟩ := h
      exact .done (by rwa [skip_skip] at hrest)
  | succ n ih =>
      simp only [Rule.many, Rule.definition_eq] at h
      cases hbody : Rule.body fuel (skip x) with
      | none =>
          simp only [hbody, Option.map_none, Option.some.injEq, Prod.mk.injEq] at h
          obtain ⟨rfl, rfl⟩ := h
          exact .done (by rwa [skip_skip] at hrest)
      | some r =>
          obtain ⟨a, y⟩ := r
          simp only [hbody, Option.map_some] at h
          cases hmany : Rule.many (Rule.definition fuel) n (skip y) with
          | none => simp [hmany] at h
          | some r =>
              obtain ⟨more, after⟩ := r
              simp only [hmany, Option.some.injEq, Prod.mk.injEq] at h
              obtain ⟨rfl, rfl⟩ := h
              refine .more hbody ?_
              cases more with
              | nil => exact .done hrest
              | cons first more => exact ih hmany hrest

theorem Rule.body_nil (fuel : Nat) : Rule.body fuel [] = none := by
  cases fuel <;> rfl

/-- A chain of definitions is read by repeating the rule often enough. -/
theorem Defines.many {fuel : Nat} {x : List Char} {ds : List (Definition × List Char)}
    (h : Defines fuel x ds) (n : Nat) (hn : ds.length < n) :
    ∃ rest, Rule.many (Rule.definition fuel) n (skip x) = some (ds, rest) ∧ skip rest = [] := by
  induction h generalizing n with
  | @done x hx =>
      cases n with
      | zero => exact absurd hn (Nat.not_lt_zero _)
      | succ n =>
          refine ⟨[], ?_, rfl⟩
          simp only [hx, Rule.many, Rule.definition_eq, Rule.body_nil, Option.map_none]
  | @more x y a ds hbody hds ih =>
      cases n with
      | zero => exact absurd hn (Nat.not_lt_zero _)
      | succ n =>
          obtain ⟨rest, hmany, hrest⟩ := ih n (Nat.lt_of_succ_lt_succ hn)
          simp only [Rule.many, Rule.definition_eq, hbody, Option.map_some, hmany]
          cases ds with
          | nil =>
              cases hds with
              | done hy => exact ⟨y, rfl, hy⟩
          | cons first more => exact ⟨rest, rfl, hrest⟩

/-- What the grammar accepts is a chain of definitions that is not empty. -/
theorem defines_of_document {x : List Char} {ds : List (Definition × List Char)}
    (h : Rule.document x = some ds) : Defines (4 * x.length + 8) x ds ∧ ds ≠ [] := by
  simp only [Rule.document, Option.bind_eq_bind, Option.bind_eq_some_iff] at h
  obtain ⟨⟨ds', rest⟩, hone, hend⟩ := h
  split at hend
  · rename_i hrest
    obtain rfl : ds' = ds := by simpa using hend
    simp only [Rule.atLeastOne] at hone
    split at hone
    · exact absurd hone (by simp)
    · rename_i hnil
      refine ⟨defines_of_many _ hone (List.isEmpty_iff.mp hrest), ?_⟩
      rintro rfl
      exact hnil rest hone
  · exact absurd hend (by simp)

/-- A chain of few definitions is accepted. -/
theorem Defines.document {x : List Char} {ds : List (Definition × List Char)}
    (h : Defines (4 * x.length + 8) x ds) (hne : ds ≠ []) (hlength : ds.length < 8) :
    Rule.document x = some ds := by
  obtain ⟨rest, hmany, hrest⟩ := h.many (4 * x.length + 8) (by omega)
  cases ds with
  | nil => exact absurd rfl hne
  | cons first more => simp [Rule.document, Rule.atLeastOne, hmany, hrest]

/-! ## Definitions as runs of lexemes -/

/-- A text that starts with a definition, seen through its lexemes. -/
structure Begins (x : List Char) (gs ls : List Lexeme) (u y : List Char) : Prop where
  /-- Blanks and comments come first. -/
  lexemes_eq : lexemes x = gs ++ lexemes (skip x)
  ignored : ∀ l ∈ gs, l.isIgnored = true
  /-- Then the definition, up to the brace that ends it. -/
  lexemes_skip_eq : lexemes (skip x) = ls ++ closingBrace :: lexemes y
  skip_eq : skip x = u ++ '}' :: y
  nests : Nests 0 ls 1
  /-- What follows is faithful again. -/
  faithful : Faithful y

theorem begins_of_body {fuel : Nat} {x y : List Char} {a : Definition} (hx : Faithful x)
    (hfuel : 3 * x.length + 1 ≤ fuel) (h : Rule.body fuel (skip x) = some (a, y)) :
    ∃ gs ls u, Begins x gs ls u y := by
  have hstart := walk_skip 0 hx
  have hskip := hstart.faithful hx
  have hlength : (skip x).length ≤ x.length := by
    obtain ⟨w, hw⟩ := hstart.suffix
    rw [congrArg List.length hw, List.length_append]
    exact Nat.le_add_left _ _
  have hwalk := Rule.body_walk hskip (by omega) h
  obtain ⟨gs, hgs, hignored⟩ := lexemes_skip hx
  obtain ⟨ls, hls, hnests⟩ := hwalk.nests (by
    intro a ha
    obtain rfl : '}' = a := by simpa using ha
    decide)
  rw [lexemes_cons, firstLexeme_closing (by decide)] at hls
  obtain ⟨u, hu⟩ := hwalk.suffix
  exact ⟨gs, ls, u, hgs, hignored, hls, hu, hnests, (hwalk.faithful hskip).of_closing (by decide)⟩

namespace Begins

variable {x u y : List Char} {gs ls : List Lexeme}

theorem lexemes_append (h : Begins x gs ls u y) :
    lexemes x = (gs ++ ls) ++ closingBrace :: lexemes y := by
  rw [h.lexemes_eq, h.lexemes_skip_eq, List.append_assoc]

theorem nests_append (h : Begins x gs ls u y) : Nests 0 (gs ++ ls) 1 :=
  (nests_of_isIgnored 0 h.ignored).append h.nests

/-- The definition takes something off the text. -/
theorem length_lt (h : Begins x gs ls u y) : y.length < x.length := by
  have htiles := text_lexemes x
  rw [h.lexemes_append, text_append, text_cons, text_lexemes] at htiles
  have hlength := congrArg List.length htiles
  simp only [closingBrace, List.length_append, List.length_cons] at hlength
  omega

end Begins

/-- A faithful chain has at least as many slices that end in it as definitions. -/
theorem Defines.length_le {fuel : Nat} {x : List Char} {ds : List (Definition × List Char)}
    (h : Defines fuel x ds) (hx : Faithful x) (hfuel : 3 * x.length + 1 ≤ fuel) :
    ds.length ≤ (cutFrom Cut.start (lexemes x)).1.length := by
  induction h with
  | done _ => exact Nat.zero_le _
  | @more x y a ds hbody _ ih =>
      obtain ⟨gs, ls, u, hbegins⟩ := begins_of_body hx hfuel hbody
      have hlt := hbegins.length_lt
      have hmore := ih hbegins.faithful (by omega)
      rw [hbegins.lexemes_append, cutFrom_definition hbegins.nests_append]
      simp only [List.length_append, List.length_cons]
      omega

/-- The lexemes end no slice and leave no bracket open. -/
def Loose (ls : List Lexeme) : Prop :=
  (cutFrom Cut.start ls).1 = [] ∧ (cutFrom Cut.start ls).2.depth = 0

/-- A text in which no slice ends is no document. -/
theorem document_eq_none_of_loose {x : List Char} (hx : Faithful x) (h : Loose (lexemes x)) :
    Rule.document x = none := by
  cases hdocument : Rule.document x with
  | none => rfl
  | some ds =>
      obtain ⟨hdefines, hne⟩ := defines_of_document hdocument
      have hlength := hdefines.length_le hx (by omega)
      rw [h.1, List.length_nil, Nat.le_zero, List.length_eq_zero_iff] at hlength
      exact absurd hlength hne

end ApiAtlas.Document
