import Mathlib.Data.List.Induction
import ApiAtlas.Graph.Assembly
set_option autoImplicit false

/-!
# Layers: joining, collecting, and the first entity of each identifier

Joined layers hold the entities of their parts one behind the other.  Of several entities with one
identifier the first is kept: what is kept has distinct identifiers, comes from the entities, and
still names each of their identifiers.  Keeping each text of a list once is the same for texts.
-/

namespace ApiAtlas

namespace Layer

variable {α : Type}

theorem foldl_append_entities (parts : List (Layer α)) (first : Layer α) :
    (parts.foldl append first).entities = first.entities ++ parts.flatMap (·.entities) := by
  induction parts generalizing first with
  | nil => simp
  | cons part rest ih => simp [ih]

@[simp] theorem join_entities (parts : List (Layer α)) :
    (join parts).entities = parts.flatMap (·.entities) := by
  simp [join, foldl_append_entities]

theorem foldl_append_warnings (parts : List (Layer α)) (first : Layer α) :
    (parts.foldl append first).warnings = first.warnings ++ parts.flatMap (·.warnings) := by
  induction parts generalizing first with
  | nil => simp
  | cons part rest ih => simp [ih]

@[simp] theorem join_warnings (parts : List (Layer α)) :
    (join parts).warnings = parts.flatMap (·.warnings) := by
  simp [join, foldl_append_warnings]

/-- The entities of a result; a problem has none. -/
def resultEntities : Except String (List α) → List α
  | .ok entities => entities
  | .error _ => []

theorem push_entities (layer : Layer α) (result : Except String (List α)) :
    (layer.push result).entities = layer.entities ++ resultEntities result := by
  cases result <;> simp [push, resultEntities]

theorem foldl_push_entities (results : List (Except String (List α))) (first : Layer α) :
    (results.foldl push first).entities = first.entities ++ results.flatMap resultEntities := by
  induction results generalizing first with
  | nil => simp
  | cons result rest ih => simp [ih, push_entities]

theorem collect_entities (results : List (Except String (List α))) :
    (collect results).entities = results.flatMap resultEntities := by
  simp [collect, foldl_push_entities]

end Layer

namespace Layers

variable {α : Type}

/-- One more entity is kept unless its identifier is there. -/
theorem firstById_concat (id : α → String) (entities : List α) (a : α) :
    firstById id (entities ++ [a]) =
      if (firstById id entities).any (id · == id a) then firstById id entities
      else firstById id entities ++ [a] := by
  simp [firstById, List.foldl_append]

theorem firstById_sublist (id : α → String) (entities : List α) :
    (firstById id entities).Sublist entities := by
  induction entities using List.reverseRecOn with
  | nil => exact List.Sublist.refl _
  | append_singleton rest a ih =>
      rw [firstById_concat]
      split
      · exact ih.trans (List.sublist_append_left _ _)
      · exact List.Sublist.append ih (List.Sublist.refl _)

theorem mem_of_mem_firstById {id : α → String} {entities : List α} {a : α}
    (h : a ∈ firstById id entities) : a ∈ entities :=
  (firstById_sublist id entities).subset h

theorem firstById_nodup (id : α → String) (entities : List α) :
    ((firstById id entities).map id).Nodup := by
  induction entities using List.reverseRecOn with
  | nil => exact List.nodup_nil
  | append_singleton rest a ih =>
      rw [firstById_concat]
      split
      · exact ih
      · next hnew =>
        rw [List.map_append, List.nodup_append]
        refine ⟨ih, by simp, ?_⟩
        intro x hx y hy hxy
        obtain ⟨b, hb, rfl⟩ := List.mem_map.mp hx
        rw [List.map_singleton, List.mem_singleton] at hy
        exact hnew (List.any_eq_true.mpr ⟨b, hb, by simp [hxy, hy]⟩)

/-- Every identifier of the entities is still there. -/
theorem exists_mem_firstById (id : α → String) {entities : List α} {a : α} (h : a ∈ entities) :
    ∃ b ∈ firstById id entities, id b = id a := by
  induction entities using List.reverseRecOn with
  | nil => exact absurd h List.not_mem_nil
  | append_singleton rest c ih =>
      rw [firstById_concat]
      rcases List.mem_append.mp h with hrest | hlast
      · obtain ⟨b, hb, hid⟩ := ih hrest
        split
        · exact ⟨b, hb, hid⟩
        · exact ⟨b, List.mem_append_left _ hb, hid⟩
      · rw [List.mem_singleton] at hlast
        subst hlast
        split
        · next hthere =>
          obtain ⟨b, hb, hid⟩ := List.any_eq_true.mp hthere
          exact ⟨b, hb, by simpa using hid⟩
        · exact ⟨a, List.mem_append_right _ (List.mem_singleton_self a), rfl⟩

/-- What is kept is the first of its identifier. -/
theorem find?_of_mem_firstById {id : α → String} {entities : List α} {a : α}
    (h : a ∈ firstById id entities) : entities.find? (id · == id a) = some a := by
  induction entities using List.reverseRecOn with
  | nil => exact absurd h List.not_mem_nil
  | append_singleton rest c ih =>
      rw [List.find?_append]
      rw [firstById_concat] at h
      split at h
      · rw [ih h, Option.some_or]
      · next hnew =>
        rcases List.mem_append.mp h with hrest | hlast
        · rw [ih hrest, Option.some_or]
        · rw [List.mem_singleton] at hlast
          subst hlast
          have hnone : rest.find? (id · == id a) = none := by
            rw [List.find?_eq_none]
            intro b hb hid
            obtain ⟨kept, hkept, hsame⟩ := exists_mem_firstById id hb
            refine hnew (List.any_eq_true.mpr ⟨kept, hkept, ?_⟩)
            rw [hsame]
            exact hid
          rw [hnone, Option.none_or]
          exact List.find?_cons_of_pos (beq_self_eq_true (id a))

/-- The identifiers that are kept are those of the entities. -/
theorem mem_map_firstById (id : α → String) (entities : List α) (x : String) :
    x ∈ (firstById id entities).map id ↔ x ∈ entities.map id := by
  constructor
  · intro h
    obtain ⟨a, ha, rfl⟩ := List.mem_map.mp h
    exact List.mem_map_of_mem (mem_of_mem_firstById ha)
  · intro h
    obtain ⟨a, ha, rfl⟩ := List.mem_map.mp h
    obtain ⟨b, hb, hid⟩ := exists_mem_firstById id ha
    exact hid ▸ List.mem_map_of_mem hb

/-- The list holds the first entity of each identifier, in the order of the entities. -/
structure FirstWins (id : α → String) (entities kept : List α) : Prop where
  sublist : kept.Sublist entities
  distinct : (kept.map id).Nodup
  first : ∀ a ∈ kept, entities.find? (id · == id a) = some a
  complete : ∀ a ∈ entities, id a ∈ kept.map id

theorem firstById_firstWins (id : α → String) (entities : List α) :
    FirstWins id entities (firstById id entities) where
  sublist := firstById_sublist id entities
  distinct := firstById_nodup id entities
  first _ ha := find?_of_mem_firstById ha
  complete a ha := (mem_map_firstById id entities (id a)).mpr (List.mem_map_of_mem ha)

end Layers

namespace Text

/-- Keeping each text once is keeping the first text of each identifier, a text being its own
identifier. -/
theorem distinct_eq_firstById (items : List String) :
    distinct items = Layers.firstById (fun x => x) items := by
  unfold distinct Layers.firstById
  congr 1
  funext seen a
  rw [List.any_beq']

/-- Keeping each text once keeps its first occurrence. -/
theorem distinct_eq_eraseDups (items : List String) : distinct items = items.eraseDups := by
  induction items using List.reverseRecOn with
  | nil => rfl
  | append_singleton rest a ih =>
      have hstep : distinct (rest ++ [a]) =
          if (distinct rest).contains a then distinct rest else distinct rest ++ [a] := by
        simp [distinct, List.foldl_append]
      rw [hstep, ih, List.eraseDups_append]
      by_cases hmem : a ∈ rest
      · have hgone : [a].removeAll rest = [] := by simp [List.removeAll, hmem]
        rw [if_pos (List.contains_iff_mem.mpr (List.mem_eraseDups.mpr hmem)), hgone,
          List.eraseDups_nil, List.append_nil]
      · have hkept : [a].removeAll rest = [a] := by simp [List.removeAll, hmem]
        rw [if_neg fun h => hmem (List.mem_eraseDups.mp (List.contains_iff_mem.mp h)), hkept,
          List.eraseDups_cons, List.filter_nil, List.eraseDups_nil]

theorem mem_distinct {items : List String} {x : String} : x ∈ distinct items ↔ x ∈ items := by
  have h := Layers.mem_map_firstById (fun x => x) items x
  simpa only [List.map_id_fun', id_eq, ← distinct_eq_firstById] using h

theorem nodup_distinct (items : List String) : (distinct items).Nodup := by
  have h := Layers.firstById_nodup (fun x => x) items
  simpa only [List.map_id_fun', id_eq, ← distinct_eq_firstById] using h

end Text

end ApiAtlas
