import ApiAtlas.Proofs.Document.Pieces
set_option autoImplicit false

/-!
# Document: names of operations

Every name that the grammar reads has at least one letter.  So an operation of a document that has a
name, or else selects a field first, is known by a name that is not empty.
-/

namespace ApiAtlas.Document

/-- The name of a selected field. -/
def Selection.fieldName? : Selection → Option String
  | .field _ name _ _ _ => some name
  | _ => none

theorem Operation.firstField?_eq (op : Operation) :
    op.firstField? = op.selections.head?.bind Selection.fieldName? := by
  unfold Operation.firstField?
  split
  · rename_i heq
    rw [heq]
    rfl
  · rename_i hnone
    cases hselections : op.selections with
    | nil => rfl
    | cons first rest =>
        cases first with
        | field label name args ds inner => exact absurd hselections (hnone _ _ _ _ _ _)
        | spread => rfl
        | inline => rfl

namespace Rule

variable {s y : List Char}

theorem name_ne_empty {n : String} (h : name s = some (n, y)) : n ≠ "" := by
  cases s with
  | nil => simp [name] at h
  | cons c rest =>
      simp only [name] at h
      split at h
      · obtain ⟨rfl, _⟩ := Prod.mk.inj (Option.some.inj h)
        intro hempty
        have hlist := congrArg String.toList hempty
        rw [String.toList_ofList] at hlist
        exact absurd hlist (by simp)
      · exact absurd h (by simp)

theorem labelled_ne_empty {label : Option String} {n : String}
    (h : labelled s = some ((label, n), y)) : n ≠ "" := by
  simp only [labelled, Option.bind_eq_bind, Option.bind_eq_some_iff] at h
  obtain ⟨⟨first, rest⟩, hfirst, h⟩ := h
  split at h
  · rename_i r hsecond
    obtain rfl : r = ((label, n), y) := Option.some.inj h
    simp only [Option.bind_eq_some_iff] at hsecond
    obtain ⟨_, _, ⟨r, y'⟩, hname, hsecond⟩ := hsecond
    obtain ⟨hpair, _⟩ := Prod.mk.inj (Option.some.inj hsecond)
    obtain ⟨_, rfl⟩ := Prod.mk.inj hpair
    exact name_ne_empty hname
  · exact absurd h (by simp)
  · obtain ⟨hpair, _⟩ := Prod.mk.inj (Option.some.inj h)
    obtain ⟨_, rfl⟩ := Prod.mk.inj hpair
    exact name_ne_empty hfirst

theorem field_ne_empty {set : Rule (List Selection)} {fuel : Nat} {sel : Selection}
    (h : field set fuel s = some (sel, y)) : ∀ n ∈ sel.fieldName?, n ≠ "" := by
  simp only [field, Option.bind_eq_bind, Option.bind_eq_some_iff] at h
  obtain ⟨⟨⟨label, key⟩, rest⟩, hlabelled, ⟨args, rest₁⟩, _, ⟨ds, rest₂⟩, _, h⟩ := h
  have hkey := labelled_ne_empty hlabelled
  split at h
  · obtain ⟨rfl, _⟩ := Prod.mk.inj (Option.some.inj h)
    exact fun n hn => Option.some.inj hn ▸ hkey
  · obtain ⟨rfl, _⟩ := Prod.mk.inj (Option.some.inj h)
    exact fun n hn => Option.some.inj hn ▸ hkey

theorem selection_ne_empty {fuel : Nat} {sel : Selection}
    (h : selection fuel s = some (sel, y)) : ∀ n ∈ sel.fieldName?, n ≠ "" := by
  cases fuel with
  | zero => simp [selection] at h
  | succ fuel =>
      rw [selection_succ, Option.or_eq_some_iff] at h
      rcases h with h | ⟨_, h⟩
      · exact field_ne_empty h
      · obtain ⟨r, _, h⟩ := Option.bind_eq_some_iff.mp h
        rw [Option.or_eq_some_iff] at h
        -- A fragment is no field.
        rcases h with h | ⟨_, h⟩
        · simp only [inlined, Option.bind_eq_bind, Option.bind_eq_some_iff] at h
          obtain ⟨_, _, _, _, _, _, h⟩ := h
          obtain ⟨rfl, _⟩ := Prod.mk.inj (Option.some.inj h)
          simp [Selection.fieldName?]
        · simp only [spread] at h
          split at h
          · exact absurd h (by simp)
          · simp only [Option.bind_eq_bind, Option.bind_eq_some_iff] at h
            obtain ⟨_, _, _, _, h⟩ := h
            obtain ⟨rfl, _⟩ := Prod.mk.inj (Option.some.inj h)
            simp [Selection.fieldName?]

theorem selections_ne_empty {fuel : Nat} {selected : List Selection}
    (h : selections fuel s = some (selected, y)) :
    ∀ n ∈ selected.head?.bind Selection.fieldName?, n ≠ "" := by
  cases fuel with
  | zero => simp [selections] at h
  | succ fuel =>
      rw [selections] at h
      cases hfirst : selection fuel s with
      | none =>
          simp only [hfirst] at h
          obtain ⟨rfl, _⟩ := Prod.mk.inj (Option.some.inj h)
          simp
      | some r =>
          obtain ⟨first, rest⟩ := r
          simp only [hfirst] at h
          split at h
          · obtain ⟨rfl, _⟩ := Prod.mk.inj (Option.some.inj h)
            exact selection_ne_empty hfirst
          · exact absurd h (by simp)

theorem selectionSet_ne_empty {fuel : Nat} {selected : List Selection}
    (h : selectionSet fuel s = some (selected, y)) :
    ∀ n ∈ selected.head?.bind Selection.fieldName?, n ≠ "" := by
  cases fuel with
  | zero => simp [selectionSet] at h
  | succ fuel =>
      simp only [selectionSet_succ, between, nonempty, Option.bind_eq_some_iff] at h
      obtain ⟨_, _, ⟨found, rest⟩, ⟨r, hselections, hfound⟩, _, _, hpair⟩ := h
      split at hfound
      · exact absurd hfound (by simp)
      · obtain rfl := Option.some.inj hfound
        obtain ⟨rfl, _⟩ := Prod.mk.inj (Option.some.inj hpair)
        exact selections_ne_empty hselections

end Rule

/-- Neither the name of the operation nor that of the field it selects first is empty. -/
structure Operation.IsNamed (op : Operation) : Prop where
  name_ne_empty : ∀ n ∈ op.name, n ≠ ""
  firstField_ne_empty : ∀ n ∈ op.firstField?, n ≠ ""

theorem Rule.operationBody_isNamed {fuel : Nat} {kind : OperationKind} {key : Option String}
    {s y : List Char} {op : Operation} (hkey : ∀ n ∈ key, n ≠ "")
    (h : Rule.operationBody fuel kind key s = some (op, y)) : op.IsNamed := by
  simp only [Rule.operationBody, Option.bind_eq_bind, Option.bind_eq_some_iff] at h
  obtain ⟨⟨ds, rest⟩, _, ⟨selected, rest'⟩, hselected, hpair⟩ := h
  obtain ⟨rfl, _⟩ := Prod.mk.inj (Option.some.inj hpair)
  refine ⟨hkey, ?_⟩
  rw [Operation.firstField?_eq]
  exact Rule.selectionSet_ne_empty hselected

theorem Rule.operation_isNamed {fuel : Nat} {s y : List Char} {op : Operation}
    (h : Rule.operation fuel s = some (op, y)) : op.IsNamed := by
  rw [Rule.operation_eq, Option.or_eq_some_iff] at h
  rcases h with h | ⟨_, h⟩
  · rw [Rule.keywordOperation_eq] at h
    obtain ⟨kind, _, h⟩ := Option.bind_eq_some_iff.mp h
    cases hname : Rule.name (skip kind.2) with
    | none =>
        rw [hname] at h
        exact Rule.operationBody_isNamed (by simp) h
    | some key =>
        rw [hname] at h
        refine Rule.operationBody_isNamed ?_ h
        intro n hn
        obtain rfl : key.1 = n := Option.some.inj hn
        exact Rule.name_ne_empty hname
  · obtain ⟨⟨selected, y'⟩, hselected, hpair⟩ := Option.map_eq_some_iff.mp h
    obtain ⟨rfl, _⟩ := Prod.mk.inj hpair
    refine ⟨by simp, ?_⟩
    rw [Operation.firstField?_eq]
    exact Rule.selectionSet_ne_empty hselected

end ApiAtlas.Document
