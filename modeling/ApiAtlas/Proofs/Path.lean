import ApiAtlas.Path
import ApiAtlas.Proofs.Text.Run
set_option autoImplicit false

/-!
# Paths: pieces and names

A text is split at each separator, so its pieces hold none and give the text back when they are
joined.  The names of a path are such pieces between its slashes.
-/

namespace ApiAtlas

/-! ## Pieces between separators -/

namespace Text

variable {α : Type} [BEq α] [LawfulBEq α]

theorem splitBy_eq_splitOn (sep : Char) (text : List Char) :
    splitBy sep text = text.splitOn sep := by
  induction text with
  | nil => rfl
  | cons c rest ih =>
      have hcons : (c :: rest).splitOn sep =
          if c == sep then [] :: rest.splitOn sep else (rest.splitOn sep).modifyHead (c :: ·) :=
        List.splitOnP_cons_eq_if_modifyHead c rest
      rw [splitBy, ih, hcons]
      cases hpieces : rest.splitOn sep with
      | nil => exact absurd hpieces (List.splitOn_ne_nil sep rest)
      | cons piece pieces => rfl

theorem not_mem_of_mem_splitBy {sep : α} {text piece : List α}
    (h : piece ∈ splitBy sep text) : sep ∉ piece := by
  induction text generalizing piece with
  | nil =>
      obtain rfl := List.mem_singleton.mp h
      exact List.not_mem_nil
  | cons c rest ih =>
      rw [splitBy] at h
      split at h
      · rcases List.mem_cons.mp h with rfl | h
        · exact List.not_mem_nil
        · exact ih h
      · next hc =>
        have hsep : sep ≠ c := fun heq => hc (beq_iff_eq.mpr heq.symm)
        split at h
        · obtain rfl := List.mem_singleton.mp h
          exact fun hmem => hsep (List.mem_singleton.mp hmem)
        · next first pieces hpieces =>
          rw [hpieces] at ih
          rcases List.mem_cons.mp h with rfl | h
          · exact List.not_mem_cons_of_ne_of_not_mem hsep (ih List.mem_cons_self)
          · exact ih (List.mem_cons_of_mem _ h)

theorem cutAt?_eq_some_iff {sep : α} {text front rest : List α} :
    cutAt? sep text = some (front, rest) ↔ text = front ++ sep :: rest ∧ sep ∉ front := by
  constructor
  · intro h
    induction text generalizing front with
    | nil => simp [cutAt?] at h
    | cons c text ih =>
        rw [cutAt?] at h
        split at h
        · next hc =>
          simp only [Option.some.injEq, Prod.mk.injEq] at h
          obtain ⟨rfl, rfl⟩ := h
          exact ⟨by rw [beq_iff_eq.mp hc]; rfl, List.not_mem_nil⟩
        · next hc =>
          obtain ⟨⟨head, tail⟩, hcut, hparts⟩ := Option.map_eq_some_iff.mp h
          simp only [Prod.mk.injEq] at hparts
          obtain ⟨rfl, rfl⟩ := hparts
          obtain ⟨rfl, hhead⟩ := ih hcut
          refine ⟨rfl, List.not_mem_cons_of_ne_of_not_mem ?_ hhead⟩
          exact fun heq => hc (beq_iff_eq.mpr heq.symm)
  · rintro ⟨rfl, hfront⟩
    exact cutAt?_append hfront rest

theorem cutAtLast?_eq_some_iff {sep : α} {text front rest : List α} :
    cutAtLast? sep text = some (front, rest) ↔ text = front ++ sep :: rest ∧ sep ∉ rest := by
  unfold cutAtLast?
  constructor
  · intro h
    obtain ⟨⟨back, ahead⟩, hcut, hparts⟩ := Option.map_eq_some_iff.mp h
    simp only [Prod.mk.injEq] at hparts
    obtain ⟨rfl, rfl⟩ := hparts
    obtain ⟨htext, hback⟩ := cutAt?_eq_some_iff.mp hcut
    refine ⟨?_, by simpa using hback⟩
    rw [← List.reverse_reverse text, htext]
    simp
  · rintro ⟨rfl, hrest⟩
    have hreverse : (front ++ sep :: rest).reverse = rest.reverse ++ sep :: front.reverse := by simp
    rw [hreverse, cutAt?_append (by simpa using hrest)]
    simp

end Text

/-! ## Names of paths -/

theorem RawText.slash_mem_of_mem {text : String} (h : '/' ∈ text.toList) :
    slash ∈ (ofText text).bytes :=
  List.mem_flatMap.mpr ⟨'/', h, by decide⟩

namespace Path

theorem component?_eq_name {first : Bool} {piece : List UInt8} {raw : RawText}
    (h : component? first piece = some (.name raw)) : raw.bytes = piece ∧ piece ≠ [] := by
  unfold component? at h
  split at h
  · exact absurd h (by simp)
  · next hne =>
    refine ⟨?_, by simpa using hne⟩
    split at h
    · split at h <;> exact absurd h (by simp)
    · split at h
      · exact absurd h (by simp)
      · obtain rfl : RawText.mk piece = raw := by simpa using h
        rfl

/-- A name of a path is a piece between its slashes that is not empty. -/
theorem bytes_mem_of_mem_rawNames {path raw : RawText} (h : raw ∈ rawNames path) :
    raw.bytes ∈ Text.splitBy RawText.slash path.bytes ∧ raw.bytes ≠ [] := by
  obtain ⟨c, hc, hname⟩ := List.mem_filterMap.mp h
  obtain rfl : c = .name raw := by
    cases c with
    | name raw' => exact congrArg Component.name (Option.some.inj hname)
    | _ => exact absurd hname (by simp [Component.name?])
  unfold components at hc
  rcases List.mem_append.mp hc with hc | hc
  · split at hc
    · simp at hc
    · obtain ⟨piece, hpiece, hcomponent⟩ := Option.bind_eq_some_iff.mp (Option.mem_toList.mp hc)
      obtain ⟨rfl, hne⟩ := component?_eq_name hcomponent
      exact ⟨List.mem_of_mem_head? hpiece, hne⟩
  · obtain ⟨piece, hpiece, hcomponent⟩ := List.mem_filterMap.mp hc
    obtain ⟨rfl, hne⟩ := component?_eq_name hcomponent
    exact ⟨List.mem_of_mem_drop hpiece, hne⟩

/-- A name that is a text is not empty and holds no slash. -/
theorem ne_empty_and_no_slash_of_mem_names {path : RawText} {n : String} (h : n ∈ names path) :
    n ≠ "" ∧ '/' ∉ n.toList := by
  obtain ⟨raw, hraw, htext⟩ := List.mem_filterMap.mp h
  obtain rfl := RawText.text?_eq_some_iff.mp htext
  obtain ⟨hpiece, hne⟩ := bytes_mem_of_mem_rawNames hraw
  refine ⟨?_, fun hslash => ?_⟩
  · rintro rfl
    exact hne rfl
  · exact Text.not_mem_of_mem_splitBy hpiece (RawText.slash_mem_of_mem hslash)

end Path

end ApiAtlas
