import ApiAtlas.Graph.Basic
set_option autoImplicit false

/-!
# Graph: walks

Questions about what can be reached along edges.  An identifier stands for the first node carrying
it, and only edges whose two ends are identifiers of nodes count.  What is near is found by a search
that queues every identifier when it is first seen, what is below by following first edges.
-/

namespace ApiAtlas.Graph

/-- The identifiers of the nodes, each once. -/
def ids (g : Graph) : List String := Text.distinct (g.nodes.map (·.id))

/-- The edges between nodes. -/
def links (g : Graph) : List GraphEdge :=
  let known := g.ids
  g.edges.filter fun e => known.contains e.source && known.contains e.target

/-- The identifiers at the other ends of the links of a node, in both directions. -/
def neighbours (links : List GraphEdge) (id : String) : List String :=
  links.flatMap fun e =>
    (if e.source == id then [e.target] else []) ++ (if e.target == id then [e.source] else [])

/-- A search under way: what was seen, in the order of seeing, and what is still to be left again,
each with the number of steps that led there. -/
structure Search where
  seen : List String := []
  queue : List (String × Nat) := []
  deriving DecidableEq, Repr, Inhabited

namespace Search

/-- See an identifier after so many steps. What was seen before is not queued again. -/
def see (steps : Nat) (s : Search) (id : String) : Search :=
  if s.seen.contains id then s else ⟨s.seen ++ [id], s.queue ++ [(id, steps)]⟩

/-- The ends of links that were not seen. -/
def unseen (links : List GraphEdge) (s : Search) : List String :=
  (links.flatMap fun e => [e.source, e.target]).filter (!s.seen.contains ·)

/-- How much is left to do at most: every unseen end may be queued once. -/
def room (links : List GraphEdge) (s : Search) : Nat := (s.unseen links).length + s.queue.length

theorem see_of_mem {s : Search} {id : String} (h : id ∈ s.seen) (steps : Nat) :
    s.see steps id = s := by
  simp [see, h]

theorem see_of_not_mem {s : Search} {id : String} (h : id ∉ s.seen) (steps : Nat) :
    s.see steps id = ⟨s.seen ++ [id], s.queue ++ [(id, steps)]⟩ := by
  simp [see, h]

theorem mem_unseen {links : List GraphEdge} {s : Search} {id : String} :
    id ∈ s.unseen links ↔ (∃ e ∈ links, id = e.source ∨ id = e.target) ∧ id ∉ s.seen := by
  simp [unseen]

/-- Seeing an end of a link takes no more room than it frees. -/
theorem room_see_le {links : List GraphEdge} {id : String}
    (hend : ∃ e ∈ links, id = e.source ∨ id = e.target) (steps : Nat) (s : Search) :
    (s.see steps id).room links ≤ s.room links := by
  by_cases hseen : id ∈ s.seen
  · exact Nat.le_of_eq (by rw [see_of_mem hseen])
  · have hfilter : (s.see steps id).unseen links = (s.unseen links).filter (· != id) := by
      unfold unseen
      rw [see_of_not_mem hseen, List.filter_filter]
      refine List.filter_congr fun x _ => ?_
      by_cases hx : x = id <;> simp [hx]
    have hless : ((s.see steps id).unseen links).length < (s.unseen links).length := by
      rw [hfilter, List.length_filter_lt_length_iff_exists]
      exact ⟨id, mem_unseen.mpr ⟨hend, hseen⟩, by simp⟩
    have hqueue : (s.see steps id).queue.length = s.queue.length + 1 := by
      simp [see_of_not_mem hseen]
    unfold room
    omega

theorem room_foldl_see_le {links : List GraphEdge} {found : List String}
    (hends : ∀ x ∈ found, ∃ e ∈ links, x = e.source ∨ x = e.target) (steps : Nat) (s : Search) :
    (found.foldl (see steps) s).room links ≤ s.room links := by
  induction found generalizing s with
  | nil => exact Nat.le_refl _
  | cons x rest ih =>
      have hrest := ih (fun y hy => hends y (List.mem_cons_of_mem x hy)) (s.see steps x)
      exact Nat.le_trans hrest (room_see_le (hends x List.mem_cons_self) steps s)

theorem end_of_mem_neighbours {links : List GraphEdge} {id x : String}
    (h : x ∈ neighbours links id) : ∃ e ∈ links, x = e.source ∨ x = e.target := by
  obtain ⟨e, he, hx⟩ := List.mem_flatMap.mp h
  simp only [List.mem_append, List.mem_ite_nil_right, List.mem_singleton] at hx
  exact ⟨e, he, hx.symm.imp And.right And.right⟩

/-- Take identifiers from the front of the queue until none is left, and see everything around
those that are fewer than `hops` steps away. -/
def run (links : List GraphEdge) (hops : Nat) : Search → List String
  | ⟨seen, []⟩ => seen
  | ⟨seen, (id, steps) :: rest⟩ =>
      if steps < hops then
        run links hops ((neighbours links id).foldl (see (steps + 1)) ⟨seen, rest⟩)
      else run links hops ⟨seen, rest⟩
termination_by s => s.room links
decreasing_by
  · have hends : ∀ x ∈ neighbours links id, ∃ e ∈ links, x = e.source ∨ x = e.target :=
      fun _ => end_of_mem_neighbours
    exact Nat.lt_of_le_of_lt (room_foldl_see_le hends _ _) (by simp [room, unseen])
  · simp [room, unseen]

end Search

/-- The identifiers that lie within `hops` steps of a seed; seeds that are no nodes do not
count. -/
def reachable (g : Graph) (seeds : List String) (hops : Nat) : List String :=
  let known := g.ids
  Search.run g.links hops ((seeds.filter known.contains).foldl (Search.see 0) {})

/-- The longest chain that is followed, in steps. -/
def maxChainSteps : Nat := 10

/-- Follow the first link out of each node, at most `steps` times, until the target is reached. -/
def chainFrom (links : List GraphEdge) (target : String) : Nat → String → List String
  | 0, id => [id]
  | steps + 1, id =>
      if id == target then [id]
      else
        match links.find? (·.source == id) with
        | some e => id :: chainFrom links target steps e.target
        | none => [id]

/-- The chain from a node toward a target; empty if it starts at no node. -/
def chain (g : Graph) (start target : String) : List String :=
  if g.ids.contains start then chainFrom g.links target maxChainSteps start else []

/-- What a node depends on directly, in the order of the edges. -/
def dependencies (g : Graph) (id : String) : List (String × EdgeKind) :=
  (g.links.filter (·.source == id)).map fun e => (e.target, e.kind)

end ApiAtlas.Graph
