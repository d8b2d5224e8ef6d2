import ApiAtlas.Proofs.Json.Decoding
set_option autoImplicit false

/-!
# Json: values with members taken out

Members are taken out of the objects of a value by the keys that lead to them.  A record whose
members are taken out keeps what the record had before anything was read, field by field: a member
that stays sets its field from what is left of it, and one that is gone sets nothing.
-/

namespace ApiAtlas.Json

/-- Which members are taken out: a member is named by its key behind the keys of the members it
stands in. -/
abbrev Pruning := List String → Bool

namespace Pruning

/-- What is taken out inside the member with this key. -/
def below (gone : Pruning) (key : String) : Pruning := fun path => gone (key :: path)

/-- The default of a member that is gone, else its value. -/
def keep {α : Type} (gone : Pruning) (key : String) (fallback value : α) : α :=
  if gone [key] then fallback else value

end Pruning

mutual

/-- The value without the members that are gone. -/
def prune (gone : Pruning) : Json → Json
  | .object members => .object (pruneMembers gone members)
  | v => v

/-- The members that stay, without what is gone inside them. -/
def pruneMembers (gone : Pruning) : List (String × Json) → List (String × Json)
  | [] => []
  | (key, v) :: rest =>
      if gone [key] then pruneMembers gone rest
      else (key, prune (gone.below key) v) :: pruneMembers gone rest

end

theorem pruneMembers_of_gone {gone : Pruning} {key : String} (h : gone [key] = true) (v : Json)
    (rest : List (String × Json)) :
    pruneMembers gone ((key, v) :: rest) = pruneMembers gone rest := by
  rw [pruneMembers, if_pos h]

theorem pruneMembers_of_kept {gone : Pruning} {key : String} (h : gone [key] = false) (v : Json)
    (rest : List (String × Json)) :
    pruneMembers gone ((key, v) :: rest) =
      (key, v.prune (gone.below key)) :: pruneMembers gone rest := by
  rw [pruneMembers, if_neg (by simp [h])]

/-- The keys that stay are those that were there and are not gone. -/
theorem mem_keys_pruneMembers {gone : Pruning} {key : String} {members : List (String × Json)} :
    key ∈ (pruneMembers gone members).map Prod.fst ↔
      key ∈ members.map Prod.fst ∧ gone [key] = false := by
  induction members with
  | nil => simp [pruneMembers]
  | cons e members ih =>
      obtain ⟨k, v⟩ := e
      cases hk : gone [k] with
      | true =>
          rw [pruneMembers_of_gone hk, ih, List.map_cons, List.mem_cons]
          refine and_congr_left fun hkey => ⟨Or.inr, fun h => h.resolve_left ?_⟩
          rintro rfl
          exact Bool.false_ne_true (hkey.symm.trans hk)
      | false =>
          rw [pruneMembers_of_kept hk, List.map_cons, List.mem_cons, ih, List.map_cons,
            List.mem_cons]
          constructor
          · rintro (rfl | ⟨hmem, hkey⟩)
            · exact ⟨.inl rfl, hk⟩
            · exact ⟨.inr hmem, hkey⟩
          · rintro ⟨rfl | hmem, hkey⟩
            · exact .inl rfl
            · exact .inr ⟨hmem, hkey⟩

/-- If no key is gone, members only change inside. -/
theorem pruneMembers_of_all_kept {gone : Pruning} (h : ∀ key, gone [key] = false)
    (members : List (String × Json)) :
    pruneMembers gone members = members.map fun e => (e.1, e.2.prune (gone.below e.1)) := by
  induction members with
  | nil => rfl
  | cons e members ih => rw [pruneMembers_of_kept (h e.1), ih, List.map_cons]

mutual

/-- A value without some of its members is exact if it was exact with them. -/
theorem Exact.prune : ∀ {v : Json}, v.Exact → ∀ gone : Pruning, (v.prune gone).Exact
  | .object members, h, gone => by
      rw [Json.prune]
      exact Exact.pruneMembers h gone
  | .null, h, _ => h
  | .bool _, h, _ => h
  | .number _, h, _ => h
  | .text _, h, _ => h
  | .array _, h, _ => h

theorem Exact.pruneMembers : ∀ {members : List (String × Json)}, (Json.object members).Exact →
    ∀ gone : Pruning, (Json.object (pruneMembers gone members)).Exact
  | [], h, _ => h
  | (key, v) :: members, h, gone => by
      have hrest := Exact.pruneMembers h.2 gone
      cases hkey : gone [key] with
      | true => rwa [pruneMembers_of_gone hkey]
      | false =>
          rw [pruneMembers_of_kept hkey]
          exact ⟨Exact.prune h.1 (gone.below key), hrest⟩

end

/-! ## Records and dictionaries with members taken out -/

namespace Record

variable {α σ : Type} {origin : Origin} {gone : Pruning} {key : String} {presence : Presence}
  {decode : Decoder α} {update : σ → α → σ} {fields : List (Field σ)} {s : σ} {v : Json}
  {members : List (String × Json)} {result : Except Fault σ}

/-- A member sets its field from what is left of it; if it is gone, the field stays as it was. -/
theorem Sets.kept {fallback a : α}
    (hvalue : gone [key] = false →
      decode origin (Draft.ofJson (v.prune (gone.below key))) = .ok a)
    (hfallback : update s fallback = s)
    (hrest : Sets origin fields (update s (gone.keep key fallback a)) (pruneMembers gone members)
      result) :
    Sets origin (Field.of key presence decode update :: fields) s
      (pruneMembers gone ((key, v) :: members)) result := by
  cases hkey : gone [key] with
  | true =>
      rw [pruneMembers_of_gone hkey]
      rw [Pruning.keep, if_pos hkey, hfallback] at hrest
      exact .absent hrest
  | false =>
      rw [pruneMembers_of_kept hkey]
      rw [Pruning.keep, if_neg (by simp [hkey])] at hrest
      have hset : (Field.of key presence decode update).set origin
          (Draft.ofJson (v.prune (gone.below key))) s = .ok (update s a) := by
        change (decode origin _).map (update s) = _
        rw [hvalue hkey]
        rfl
      exact .present hset hrest

/-- The first member that stays and is refused is the fault of the record. -/
theorem Sets.stops {fault : Fault} (hkey : gone [key] = false)
    (hvalue : decode origin (Draft.ofJson (v.prune (gone.below key))) = .error fault) :
    Sets origin (Field.of key presence decode update :: fields) s
      (pruneMembers gone ((key, v) :: members)) (.error fault) := by
  rw [pruneMembers_of_kept hkey]
  refine .refused ?_
  change (decode origin _).map (update s) = _
  rw [hvalue]
  rfl

end Record

end ApiAtlas.Json
