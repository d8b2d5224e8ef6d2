import ApiAtlas.Proofs.Graph.Adjacency
set_option autoImplicit false

/-!
# Chains descend the layers

A chain follows the first edge out of each node and is cut off after a fixed number of steps, since
a graph read from anywhere may have cycles.  In a well-formed graph every edge leads one layer down,
so a chain has at most one node of each layer, and the limit never cuts it: it ends in its target or
in a node that no edge leaves.
-/

namespace ApiAtlas

namespace NodeKind

/-- How many layers lie above that of a kind. -/
def depth : NodeKind → Nat
  | .screen => 0
  | .operation => 1
  | .resolver => 2
  | .rpc => 3

theorem depth_le (kind : NodeKind) : kind.depth ≤ 3 := by
  cases kind <;> decide

end NodeKind

/-- Edges lead one layer down. -/
theorem EdgeKind.depth_targetKind (kind : EdgeKind) :
    kind.targetKind.depth = kind.sourceKind.depth + 1 := by
  cases kind <;> rfl

namespace Graph

/-- The first of the edges that leave `a` leads to `b`. -/
def FirstEdge (g : Graph) (a b : String) : Prop :=
  ∃ front e back, g.edges = front ++ e :: back ∧ e.source = a ∧ e.target = b ∧
    ∀ f ∈ front, f.source ≠ a

/-- The path that starts at a node and follows first edges until it arrives at the target or no edge
leads on. -/
inductive Follows (g : Graph) (target : String) : String → List String → Prop
  | arrived : Follows g target target [target]
  | stranded {a : String} (hne : a ≠ target) (hnone : ∀ e ∈ g.edges, e.source ≠ a) :
      Follows g target a [a]
  | step {a b : String} {path : List String} (hne : a ≠ target) (hfirst : g.FirstEdge a b)
      (hrest : Follows g target b path) : Follows g target a (a :: path)

/-- What a chain is: it follows first edges, and goes down from layer to layer, so that it has no
more nodes than there are layers. -/
structure Descends (g : Graph) (target start : String) (path : List String) : Prop where
  follows : g.Follows target start path
  layers : ∃ nodes : List GraphNode, nodes.map (·.id) = path ∧ (∀ n ∈ nodes, n ∈ g.nodes) ∧
    nodes.Pairwise fun a b => a.kind.depth < b.kind.depth
  short : path.length ≤ 4

theorem firstEdge_of_find? {g : Graph} {a : String} {e : GraphEdge}
    (h : g.edges.find? (·.source == a) = some e) : g.FirstEdge a e.target := by
  obtain ⟨hsource, front, back, hedges, hfront⟩ := List.find?_eq_some_iff_append.mp h
  refine ⟨front, e, back, hedges, beq_iff_eq.mp hsource, rfl, ?_⟩
  intro f hf
  simpa using hfront f hf

theorem FirstEdge.exists_mem {g : Graph} {a b : String} (h : g.FirstEdge a b) :
    ∃ e ∈ g.edges, e.source = a ∧ e.target = b := by
  obtain ⟨front, e, back, hedges, hsource, htarget, _⟩ := h
  refine ⟨e, ?_, hsource, htarget⟩
  rw [hedges]
  exact List.mem_append_right front List.mem_cons_self

section Following

variable {g : Graph} {target start : String} {path : List String}

theorem Follows.head? (h : g.Follows target start path) : path.head? = some start := by
  cases h <;> rfl

/-- At the target the path ends at once. -/
theorem Follows.eq_singleton (h : g.Follows target target path) : path = [target] := by
  cases h with
  | arrived => rfl
  | stranded hne _ => exact absurd rfl hne
  | step hne _ _ => exact absurd rfl hne

end Following

/-! ## Going down the layers -/

/-- The path starts at a node of the kind and goes down from layer to layer. -/
def Descent (g : Graph) (kind : NodeKind) (start : String) (path : List String) : Prop :=
  ∃ first rest, (first :: rest).map GraphNode.id = path ∧ first.id = start ∧ first.kind = kind ∧
    (∀ n ∈ first :: rest, n ∈ g.nodes) ∧
    (first :: rest).Pairwise (fun a b => a.kind.depth < b.kind.depth) ∧
    path.length + kind.depth ≤ 4

theorem Descent.singleton {g : Graph} {kind : NodeKind} {start : String}
    (h : g.HasNode kind start) : g.Descent kind start [start] := by
  obtain ⟨n, hn, hkind, hid⟩ := h
  have hdepth := kind.depth_le
  refine ⟨n, [], by simp [hid], hid, hkind, by simpa using hn, List.pairwise_singleton _ _, ?_⟩
  rw [List.length_singleton]
  omega

theorem Descent.cons {g : Graph} {kind below : NodeKind} {start next : String}
    {path : List String} (h : g.Descent below next path) (hstart : g.HasNode kind start)
    (hbelow : below.depth = kind.depth + 1) : g.Descent kind start (start :: path) := by
  obtain ⟨n, hn, hkind, hid⟩ := hstart
  obtain ⟨first, rest, hpath, _, hfirst, hnodes, hlayers, hshort⟩ := h
  have hstep : n.kind.depth < first.kind.depth := by
    rw [hkind, hfirst]
    omega
  have hdown : ∀ m ∈ first :: rest, n.kind.depth < m.kind.depth := by
    intro m hm
    rcases List.mem_cons.mp hm with rfl | hm
    · exact hstep
    · exact hstep.trans ((List.pairwise_cons.mp hlayers).1 m hm)
  refine ⟨n, first :: rest, by rw [List.map_cons, hpath, hid], hid, hkind, ?_,
    List.pairwise_cons.mpr ⟨hdown, hlayers⟩, ?_⟩
  · intro m hm
    rcases List.mem_cons.mp hm with rfl | hm
    · exact hn
    · exact hnodes m hm
  · rw [List.length_cons]
    omega

section Layered

variable {g : Graph} (hg : g.WellFormed)
include hg

/-- An edge ends one layer below the node it leaves. -/
theorem WellFormed.below_of_edge {e : GraphEdge} (he : e ∈ g.edges) {kind : NodeKind}
    (hsource : g.HasNode kind e.source) :
    ∃ below, g.HasNode below e.target ∧ below.depth = kind.depth + 1 := by
  have hkind : e.kind.sourceKind = kind := hg.kind_unique (hg.sources e he) hsource
  refine ⟨e.kind.targetKind, hg.targets e he, ?_⟩
  rw [EdgeKind.depth_targetKind, hkind]

/-- Enough steps follow the first edges to the end: with each step at most one layer less lies
below. -/
theorem WellFormed.follows_chainFrom (target : String) {steps : Nat} {kind : NodeKind}
    {start : String} (hstart : g.HasNode kind start) (hsteps : 3 ≤ kind.depth + steps) :
    g.Follows target start (chainFrom g.edges target steps start) := by
  induction steps generalizing kind start with
  | zero =>
      unfold chainFrom
      by_cases htarget : start = target
      · subst htarget
        exact .arrived
      · refine .stranded htarget ?_
        rintro e he rfl
        -- the start lies in the lowest layer, so there is no layer for the edge to end in
        obtain ⟨below, _, hbelow⟩ := hg.below_of_edge he hstart
        have hlowest := below.depth_le
        omega
  | succ steps ih =>
      rw [chainFrom]
      by_cases htarget : start = target
      · subst htarget
        rw [if_pos (beq_self_eq_true _)]
        exact .arrived
      · rw [if_neg (fun h => htarget (beq_iff_eq.mp h))]
        cases hfirst : g.edges.find? (·.source == start) with
        | none =>
            refine .stranded htarget ?_
            intro e he
            simpa using List.find?_eq_none.mp hfirst e he
        | some e =>
            have hsource : e.source = start := by simpa using List.find?_some hfirst
            obtain ⟨below, htargetNode, hbelow⟩ :=
              hg.below_of_edge (List.mem_of_find?_eq_some hfirst) (hsource ▸ hstart)
            refine .step htarget (firstEdge_of_find? hfirst) (ih htargetNode ?_)
            omega

theorem WellFormed.descent_of_follows {target start : String} {path : List String}
    (h : g.Follows target start path) {kind : NodeKind} (hstart : g.HasNode kind start) :
    g.Descent kind start path := by
  induction h generalizing kind with
  | arrived => exact .singleton hstart
  | stranded hne hnone => exact .singleton hstart
  | step hne hfirst hrest ih =>
      obtain ⟨e, he, hsource, htarget⟩ := hfirst.exists_mem
      obtain ⟨below, hb, hbelow⟩ := hg.below_of_edge he (hsource ▸ hstart)
      exact (ih (htarget ▸ hb)).cons hstart hbelow

/-- A path of first edges meets the layer it starts in only once. -/
theorem WellFormed.eq_start_of_follows {target start x : String} {path : List String}
    (h : g.Follows target start path) {kind : NodeKind} (hstart : g.HasNode kind start)
    (hx : x ∈ path) (hkind : g.HasNode kind x) : x = start := by
  obtain ⟨first, rest, rfl, hid, hfirst, hnodes, hlayers, _⟩ := hg.descent_of_follows h hstart
  obtain ⟨n, hn, rfl⟩ := List.mem_map.mp hx
  have hn_kind : n.kind = kind := hg.kind_unique ⟨n, hnodes n hn, rfl, rfl⟩ hkind
  rcases List.mem_cons.mp hn with rfl | hn
  · exact hid
  · have hlower := (List.pairwise_cons.mp hlayers).1 n hn
    rw [hfirst, hn_kind] at hlower
    exact absurd hlower (Nat.lt_irrefl _)

/-- From a node of a well-formed graph, a chain is not cut. -/
theorem WellFormed.chain_descends {kind : NodeKind} {start : String}
    (hstart : g.HasNode kind start) (target : String) :
    g.Descends target start (g.chain start target) := by
  have hfollows : g.Follows target start (g.chain start target) := by
    unfold chain
    rw [if_pos (List.contains_iff_mem.mpr hstart.mem_ids), hg.links_eq]
    exact hg.follows_chainFrom target hstart (by unfold maxChainSteps; omega)
  obtain ⟨first, rest, hpath, _, _, hnodes, hlayers, hshort⟩ :=
    hg.descent_of_follows hfollows hstart
  exact ⟨hfollows, ⟨first :: rest, hpath, hnodes, hlayers⟩, by omega⟩

end Layered

end Graph

end ApiAtlas
