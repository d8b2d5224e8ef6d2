set_option autoImplicit false

/-!
# Dictionaries sorted by key

A dictionary is a list of entries whose keys increase, so that each key occurs once and two
dictionaries with the same entries are equal.  Texts are ordered by code points.  Everything the
library writes out by key is kept in this form.
-/

namespace ApiAtlas

/-- Entries with increasing keys. -/
structure Dict (α : Type) where
  entries : List (String × α)
  sorted : entries.Pairwise fun a b => a.1 < b.1
  deriving DecidableEq

namespace Dict

variable {α β : Type}

/-- The dictionary without entries. -/
def empty : Dict α := ⟨[], .nil⟩

instance : Inhabited (Dict α) := ⟨empty⟩

/-- Put a value under a key, in the place of the old one if there is one. -/
def insertEntry (key : String) (value : α) : List (String × α) → List (String × α)
  | [] => [(key, value)]
  | (k, v) :: rest =>
      if key < k then (key, value) :: (k, v) :: rest
      else if key = k then (key, value) :: rest
      else (k, v) :: insertEntry key value rest

theorem mem_insertEntry {key : String} {value : α} {entries : List (String × α)}
    {e : String × α} (h : e ∈ insertEntry key value entries) :
    e = (key, value) ∨ e ∈ entries := by
  induction entries with
  | nil => simpa [insertEntry] using h
  | cons head rest ih =>
    obtain ⟨k, v⟩ := head
    simp only [insertEntry] at h
    split at h
    · simpa using h
    · split at h
      · rcases List.mem_cons.mp h with h | h
        · exact .inl h
        · exact .inr (List.mem_cons_of_mem _ h)
      · rcases List.mem_cons.mp h with h | h
        · exact .inr (h ▸ List.mem_cons_self)
        · exact (ih h).imp id (List.mem_cons_of_mem _)

/-- Texts are linearly ordered: of two different ones, one comes first. -/
theorem lt_of_not_lt_of_ne {a b : String} (h : ¬ a < b) (hne : ¬ a = b) : b < a :=
  Decidable.byContradiction fun h' =>
    hne (String.le_antisymm (String.not_lt.mp h') (String.not_lt.mp h))

theorem insertEntry_sorted {key : String} {value : α} {entries : List (String × α)}
    (h : entries.Pairwise fun a b => a.1 < b.1) :
    (insertEntry key value entries).Pairwise fun a b => a.1 < b.1 := by
  induction entries with
  | nil => simp [insertEntry]
  | cons head rest ih =>
    obtain ⟨k, v⟩ := head
    rw [List.pairwise_cons] at h
    simp only [insertEntry]
    split
    · next hlt =>
      refine List.pairwise_cons.mpr ⟨?_, List.pairwise_cons.mpr h⟩
      intro e he
      rcases List.mem_cons.mp he with rfl | he
      · exact hlt
      · exact String.lt_trans hlt (h.1 e he)
    · next hlt =>
      split
      · next heq => exact List.pairwise_cons.mpr ⟨fun e he => heq ▸ h.1 e he, h.2⟩
      · next hne =>
        refine List.pairwise_cons.mpr ⟨?_, ih h.2⟩
        intro e he
        rcases mem_insertEntry he with rfl | he
        · exact lt_of_not_lt_of_ne hlt hne
        · exact h.1 e he

/-- Put a value under a key, in the place of the old one if there is one. -/
def insert (d : Dict α) (key : String) (value : α) : Dict α :=
  ⟨insertEntry key value d.entries, insertEntry_sorted d.sorted⟩

/-- The dictionary of a list of entries; of two entries with one key the later counts. -/
def ofList (entries : List (String × α)) : Dict α :=
  entries.foldl (fun d e => d.insert e.1 e.2) empty

/-- A key behind all others is put at the end. -/
theorem insertEntry_of_lt {key : String} {value : α} {entries : List (String × α)}
    (h : ∀ e ∈ entries, e.1 < key) :
    insertEntry key value entries = entries ++ [(key, value)] := by
  induction entries with
  | nil => rfl
  | cons head rest ih =>
    obtain ⟨k, v⟩ := head
    have hlt : k < key := h (k, v) List.mem_cons_self
    have hrest := ih fun e he => h e (List.mem_cons_of_mem _ he)
    simp only [insertEntry]
    rw [if_neg fun h' => String.lt_irrefl _ (String.lt_trans hlt h'),
      if_neg fun h' : key = k => String.lt_irrefl _ (h' ▸ hlt), hrest]
    rfl

theorem entries_foldl_insert (d : Dict α) (rest : List (String × α))
    (h : (d.entries ++ rest).Pairwise fun a b => a.1 < b.1) :
    (rest.foldl (fun d e => d.insert e.1 e.2) d).entries = d.entries ++ rest := by
  induction rest generalizing d with
  | nil => exact (List.append_nil _).symm
  | cons e rest ih =>
    have hbehind : ∀ a ∈ d.entries, a.1 < e.1 := fun a ha =>
      (List.pairwise_append.mp h).2.2 a ha e List.mem_cons_self
    have hinsert : (d.insert e.1 e.2).entries = d.entries ++ [e] := insertEntry_of_lt hbehind
    rw [List.foldl_cons, ih]
    · rw [hinsert, List.append_assoc]
      rfl
    · rw [hinsert, List.append_assoc]
      exact h

/-- A dictionary is the dictionary of its own entries. -/
theorem ofList_entries (d : Dict α) : ofList d.entries = d := by
  have hentries : (ofList d.entries).entries = d.entries := entries_foldl_insert empty _ d.sorted
  cases d
  cases hlist : ofList _
  rw [hlist] at hentries
  simp only at hentries
  subst hentries
  rfl

/-- Every entry of the dictionary of a list is one of the list. -/
theorem mem_of_mem_ofList {entries : List (String × α)} {e : String × α}
    (h : e ∈ (ofList entries).entries) : e ∈ entries := by
  have hfold : ∀ (rest : List (String × α)) (d : Dict α),
      e ∈ (rest.foldl (fun d e => d.insert e.1 e.2) d).entries → e ∈ d.entries ∨ e ∈ rest := by
    intro rest
    induction rest with
    | nil => exact fun d h => .inl h
    | cons head rest ih =>
      intro d h
      rcases ih _ h with hmem | hmem
      · rcases mem_insertEntry hmem with heq | hmem
        · exact .inr (heq ▸ List.mem_cons_self)
        · exact .inl hmem
      · exact .inr (List.mem_cons_of_mem _ hmem)
  exact (hfold entries empty h).resolve_left (by simp [empty])

/-- The value under a key. -/
def get? (d : Dict α) (key : String) : Option α := d.entries.lookup key

theorem lookup_cons_eq_ite (key other : String) (value : α) (entries : List (String × α)) :
    ((key, value) :: entries).lookup other =
      if other = key then some value else entries.lookup other := by
  rw [List.lookup_cons]
  by_cases h : other = key
  · rw [if_pos h, beq_iff_eq.mpr h]
  · rw [if_neg h, beq_eq_false_iff_ne.mpr h]

theorem lookup_insertEntry (key other : String) (value : α) (entries : List (String × α)) :
    (insertEntry key value entries).lookup other =
      if other = key then some value else entries.lookup other := by
  induction entries with
  | nil => exact lookup_cons_eq_ite key other value []
  | cons head rest ih =>
    obtain ⟨k, v⟩ := head
    simp only [insertEntry]
    split
    · exact lookup_cons_eq_ite key other value _
    · split
      · next heq =>
        rw [lookup_cons_eq_ite, lookup_cons_eq_ite, ← heq]
        split <;> rfl
      · next hne =>
        rw [lookup_cons_eq_ite, lookup_cons_eq_ite, ih]
        split
        · next hk => rw [if_neg fun h : other = key => hne (h.symm.trans hk)]
        · rfl

theorem get?_insert (d : Dict α) (key other : String) (value : α) :
    (d.insert key value).get? other = if other = key then some value else d.get? other :=
  lookup_insertEntry key other value d.entries

theorem get?_empty (key : String) : (empty : Dict α).get? key = none := rfl

/-- The value under a key is the one entry with that key. -/
theorem get?_eq_some_iff {d : Dict α} {key : String} {value : α} :
    d.get? key = some value ↔ (key, value) ∈ d.entries := by
  unfold get?
  rw [List.lookup_eq_some_iff]
  constructor
  · rintro ⟨front, back, hentries, _⟩
    rw [hentries]
    exact List.mem_append_right _ List.mem_cons_self
  · intro hmem
    obtain ⟨front, back, hentries⟩ := List.append_of_mem hmem
    have hsorted := d.sorted
    rw [hentries, List.pairwise_append] at hsorted
    refine ⟨front, back, hentries, ?_⟩
    intro e he
    have hlt : e.1 < key := hsorted.2.2 e he (key, value) List.mem_cons_self
    rw [bne_iff_ne]
    rintro rfl
    exact String.lt_irrefl _ hlt

/-- Change the value under a key by `f`, which is told the old one. -/
def alter (d : Dict α) (key : String) (f : Option α → α) : Dict α :=
  d.insert key (f (d.get? key))

theorem get?_alter (d : Dict α) (key other : String) (f : Option α → α) :
    (d.alter key f).get? other = if other = key then some (f (d.get? key)) else d.get? other :=
  get?_insert d key other _

/-- The keys in increasing order. -/
def keys (d : Dict α) : List String := d.entries.map (·.1)

/-- Entries whose values are changed and whose keys stay are still sorted. -/
theorem map_sorted (f : α → β) {entries : List (String × α)}
    (h : entries.Pairwise fun a b => a.1 < b.1) :
    (entries.map fun e => (e.1, f e.2)).Pairwise fun a b => a.1 < b.1 := by
  simpa [List.pairwise_map] using h

/-- The dictionary with `f` applied to every value. -/
def map (f : α → β) (d : Dict α) : Dict β :=
  ⟨d.entries.map fun e => (e.1, f e.2), map_sorted f d.sorted⟩

end Dict

end ApiAtlas
