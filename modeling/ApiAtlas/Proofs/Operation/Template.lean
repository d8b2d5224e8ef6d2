import ApiAtlas.Operation.Script
import ApiAtlas.Proofs.Text.Run
set_option autoImplicit false

/-!
# Operations in templates: removing placeholders restores the static text

The text of a template has a placeholder for each interpolation, and before it is read the
placeholders are removed again.  The opening of a placeholder is two characters, so a seam could
make one: a chunk may end in a dollar, or start with a brace.  It does not, because a placeholder
starts with a dollar and ends in a closing brace, and what is behind it is searched from there on.
-/

namespace ApiAtlas.ApiOperation

open Syntax (placeholder templateText)

/-- A placeholder opens somewhere in the text. -/
def OpensPlaceholder (text : List Char) : Prop := ['$', '{'] <:+: text

instance (text : List Char) : Decidable (OpensPlaceholder text) :=
  inferInstanceAs (Decidable (['$', '{'] <:+: text))

/-- A character that opens no placeholder stays. -/
theorem withoutPlaceholders_cons (fuel : Nat) {c : Char} {rest : List Char}
    (h : ¬ ['$', '{'] <+: c :: rest) :
    withoutPlaceholders (fuel + 1) (c :: rest) = c :: withoutPlaceholders fuel rest := by
  rw [withoutPlaceholders]
  rintro more rfl rfl
  exact h ⟨more, rfl⟩

/-- A placeholder goes, whatever follows it. -/
theorem withoutPlaceholders_placeholder (fuel : Nat) (rest : List Char) :
    withoutPlaceholders (fuel + 1) (placeholder.toList ++ rest) =
      withoutPlaceholders fuel rest := by
  have hcut : Text.cutAt? '}' (['.', '.', '.'] ++ '}' :: rest) = some (['.', '.', '.'], rest) :=
    Text.cutAt?_append (by decide) rest
  have hplaceholder : placeholder.toList ++ rest = '$' :: '{' :: (['.', '.', '.'] ++ '}' :: rest) :=
    rfl
  rw [hplaceholder, withoutPlaceholders, hcut]

/-- A text in which no placeholder opens stays, if the text behind it does not start with the brace
that would make a dollar at its end an opening. -/
theorem withoutPlaceholders_append {text rest : List Char} (htext : ¬ OpensPlaceholder text)
    (hrest : Text.Stops (· == '{') rest) (fuel : Nat) :
    withoutPlaceholders fuel (text ++ rest) =
      text ++ withoutPlaceholders (fuel - text.length) rest := by
  induction text generalizing fuel with
  | nil => rfl
  | cons c text ih =>
      cases fuel with
      | zero => simp [withoutPlaceholders]
      | succ fuel =>
          have hopen : ¬ ['$', '{'] <+: c :: (text ++ rest) := by
            rintro ⟨more, hmore⟩
            obtain ⟨rfl, hbehind⟩ := List.cons.inj hmore
            cases text with
            | nil =>
                obtain rfl : '{' :: more = rest := hbehind
                exact absurd (Text.stops_cons.mp hrest) (by decide)
            | cons d text =>
                obtain ⟨rfl, -⟩ := List.cons.inj hbehind
                exact htext ⟨[], text, rfl⟩
          have hbehind : ¬ OpensPlaceholder text := fun h =>
            htext (List.infix_cons_iff.mpr (.inr h))
          rw [List.cons_append, withoutPlaceholders_cons fuel hopen, ih hbehind, List.cons_append,
            List.length_cons, Nat.add_sub_add_right]

/-- Chunks with placeholders between them lose the placeholders and nothing else. -/
theorem withoutPlaceholders_intercalate {chunks : List (List Char)}
    (h : ∀ q ∈ chunks, ¬ OpensPlaceholder q) {fuel : Nat}
    (hfuel : (placeholder.toList.intercalate chunks).length ≤ fuel) :
    withoutPlaceholders fuel (placeholder.toList.intercalate chunks) = chunks.flatten := by
  induction chunks generalizing fuel with
  | nil => cases fuel <;> rfl
  | cons q chunks ih =>
      have hq : ¬ OpensPlaceholder q := h q List.mem_cons_self
      cases chunks with
      | nil =>
          have hstops : Text.Stops (· == '{') [] := by simp [Text.Stops]
          have hkept := withoutPlaceholders_append hq hstops fuel
          have hnil : withoutPlaceholders (fuel - q.length) [] = [] := by
            cases fuel - q.length <;> rfl
          rw [hnil] at hkept
          simpa [List.intercalate] using hkept
      | cons q' chunks =>
          rw [List.intercalate_cons_cons, List.append_assoc] at hfuel ⊢
          rw [List.length_append, List.length_append] at hfuel
          -- the dollar of the placeholder keeps a dollar before it from opening one
          have hseam : Text.Stops (· == '{')
              (placeholder.toList ++ placeholder.toList.intercalate (q' :: chunks)) :=
            Text.stops_cons.mpr (by decide)
          have hlength : placeholder.toList.length = 6 := by decide
          obtain ⟨less, hless⟩ : ∃ less, fuel - q.length = less + 1 :=
            ⟨fuel - q.length - 1, by omega⟩
          rw [withoutPlaceholders_append hq hseam, hless, withoutPlaceholders_placeholder,
            ih (fun p hp => h p (List.mem_cons_of_mem q hp)) (by omega)]
          exact List.flatten_cons.symm

/-- What is read of a text is its static text. -/
theorem embedded?_eq (file : RawText) (text : String) :
    embedded? file text =
      (Document.parse (staticText text.toList)).toOption.bind fun operations =>
        operations.head?.bind (ofDefinition? file text) := by
  unfold embedded?
  cases Document.parse (staticText text.toList) with
  | error fault => rfl
  | ok operations => cases operations <;> rfl

/-- **Removing placeholders restores the static text**: what is read of a template in whose chunks
no placeholder opens is the chunks, one behind the other. -/
theorem embedded?_templateText (file : RawText) (quasis : List String)
    (h : ∀ q ∈ quasis, ¬ OpensPlaceholder q.toList) :
    staticText (templateText quasis).toList = (String.join quasis).toList ∧
      embedded? file (templateText quasis) =
        (Document.parse (String.join quasis).toList).toOption.bind fun operations =>
          operations.head?.bind (ofDefinition? file (templateText quasis)) := by
  have htext : (templateText quasis).toList =
      placeholder.toList.intercalate (quasis.map String.toList) := String.toList_intercalate
  have hstatic : staticText (templateText quasis).toList = (String.join quasis).toList := by
    unfold staticText
    rw [htext, withoutPlaceholders_intercalate (List.forall_mem_map.mpr h) (Nat.le_refl _),
      String.toList_join, List.flatMap_def]
  exact ⟨hstatic, by rw [embedded?_eq, hstatic]⟩

/-- Chunks whose ends make openings of placeholders where they meet, one of them empty. -/
def seamChunks : List String :=
  ["query Q \x7b a(x: \"$", "", "\x7b.\x7d é$", "\x7b\", y: \"\x7d$", "$\") \x7d"]

theorem embedded?_templateText_seams :
    (∀ q ∈ seamChunks, ¬ OpensPlaceholder q.toList) ∧
      OpensPlaceholder (String.join seamChunks).toList ∧
      staticText (templateText seamChunks).toList = (String.join seamChunks).toList ∧
      (embedded? "q.ts" (templateText seamChunks)).map (·.id) = some "gql:query.Q" := by
  have hchunks : ∀ q ∈ seamChunks, ¬ OpensPlaceholder q.toList := by decide
  exact ⟨hchunks, by decide +kernel, (embedded?_templateText "q.ts" seamChunks hchunks).1,
    by decide +kernel⟩

end ApiAtlas.ApiOperation
