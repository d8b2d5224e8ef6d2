import Mathlib.Data.List.Basic
import ApiAtlas.Proofs.Graph.Reachability
import ApiAtlas.Proofs.Report.Filter
import ApiAtlas.Report.Selection
set_option autoImplicit false

/-!
# Selections grow with their options and are closed

The filter of a selection acts twice, on the screens where the search starts and on the nodes that
are kept, and the layers are applied only behind the search, which may pass through nodes that are
dropped later.  All the same, options that ask for more select more: from more seeds and with a
higher limit a search reaches more, whatever the graph.  The selected part is closed in that exactly
the edges between selected nodes belong to it, and no limit costs a screen that passes the filter.
-/

namespace ApiAtlas

/-- The first options ask for no more than the second: every layer of theirs is one of the second,
no limit is higher than theirs, and a screen of the graph that passes their filter passes the
second. -/
structure SelectionOptions.Narrower (g : Graph) (narrow wide : SelectionOptions) : Prop where
  layers : narrow.layers ⊆ wide.layers
  hops : ∀ k, wide.hops = some k → ∃ h, narrow.hops = some h ∧ h ≤ k
  screens : ∀ n ∈ g.nodes, n.kind = .screen → ScreenFilter.acceptsAll narrow.filter n = true →
    ScreenFilter.acceptsAll wide.filter n = true

namespace SelectionOptions.Narrower

variable {g : Graph} {narrow wide : SelectionOptions} (h : narrow.Narrower g wide)
include h

theorem accepts {n : GraphNode} (hn : n ∈ g.nodes)
    (hpass : ScreenFilter.acceptsAll narrow.filter n = true) :
    ScreenFilter.acceptsAll wide.filter n = true := by
  by_cases hkind : n.kind = .screen
  · exact h.screens n hn hkind hpass
  · exact ScreenFilter.acceptsAll_of_not_screen wide.filter hkind

end SelectionOptions.Narrower

namespace Selection

/-- The screens where the search for near nodes starts. -/
def seeds (g : Graph) (options : SelectionOptions) : List String :=
  ((g.nodesOf .screen).filter (ScreenFilter.acceptsAll options.filter)).map (·.id)

/-- The node lies near the seeds, if a limit is given. -/
def isNear (g : Graph) (options : SelectionOptions) (n : GraphNode) : Bool :=
  (near? g options).all (·.contains n.id)

/-- The node is selected. -/
def keeps (g : Graph) (options : SelectionOptions) (n : GraphNode) : Bool :=
  ScreenFilter.acceptsAll options.filter n && isNear g options n
    && options.layers.contains n.kind.layer

/-- Both ends of the edge are selected. -/
def joins (g : Graph) (options : SelectionOptions) (e : GraphEdge) : Bool :=
  ((of g options).nodes.map (·.id)).contains e.source
    && ((of g options).nodes.map (·.id)).contains e.target

section Options

variable (g : Graph) (options : SelectionOptions)

theorem nodes_of : (of g options).nodes = g.nodes.filter (keeps g options) := rfl

theorem edges_of : (of g options).edges = g.edges.filter (joins g options) := rfl

theorem near?_eq : near? g options = options.hops.map (g.reachable (seeds g options)) := rfl

variable {g options}

theorem mem_seeds {id : String} :
    id ∈ seeds g options ↔ ∃ n ∈ g.nodes, n.kind = .screen ∧
      ScreenFilter.acceptsAll options.filter n = true ∧ n.id = id := by
  simp only [seeds, Graph.nodesOf, List.mem_map, List.mem_filter, beq_iff_eq, and_assoc]

theorem isNear_iff {n : GraphNode} :
    isNear g options n = true ↔
      ∀ k, options.hops = some k → g.Within (seeds g options) k n.id := by
  unfold isNear
  rw [near?_eq]
  cases options.hops with
  | none => simp
  | some k => simp [Graph.mem_reachable]

theorem keeps_iff {n : GraphNode} :
    keeps g options n = true ↔
      ScreenFilter.acceptsAll options.filter n = true ∧ isNear g options n = true ∧
        n.kind.layer ∈ options.layers := by
  simp only [keeps, Bool.and_eq_true, List.contains_iff_mem, and_assoc]

theorem joins_iff {e : GraphEdge} :
    joins g options e = true ↔
      e.source ∈ (of g options).nodes.map (·.id) ∧
        e.target ∈ (of g options).nodes.map (·.id) := by
  simp only [joins, Bool.and_eq_true, List.contains_iff_mem]

/-- A screen that passes the filter is a seed, so it is near whatever the limit. -/
theorem isNear_of_screen {n : GraphNode} (hn : n ∈ g.nodes) (hkind : n.kind = .screen)
    (hpass : ScreenFilter.acceptsAll options.filter n = true) : isNear g options n = true := by
  rw [isNear_iff]
  intro k _
  have hseed : n.id ∈ seeds g options := mem_seeds.mpr ⟨n, hn, hkind, hpass, rfl⟩
  have hstart : g.Within (seeds g options) 0 n.id :=
    Graph.within_zero.mpr ⟨hseed, List.mem_map_of_mem hn⟩
  exact hstart.mono (Nat.zero_le k)

end Options

/-- Of a list, a stronger condition keeps fewer items, in the same order. -/
theorem filter_sublist_filter {α : Type} {p q : α → Bool} {items : List α}
    (h : ∀ a ∈ items, p a = true → q a = true) : (items.filter p).Sublist (items.filter q) := by
  have hboth : items.filter p = (items.filter q).filter p := by
    rw [List.filter_filter]
    refine List.filter_congr fun a ha => ?_
    cases hp : p a with
    | false => rfl
    | true => rw [h a ha hp]; rfl
  rw [hboth]
  exact List.filter_sublist

section Growth

variable {g : Graph} {narrow wide : SelectionOptions} (h : narrow.Narrower g wide)
include h

theorem seeds_subset : seeds g narrow ⊆ seeds g wide := by
  intro id hid
  obtain ⟨n, hn, hkind, hpass, rfl⟩ := mem_seeds.mp hid
  exact mem_seeds.mpr ⟨n, hn, hkind, h.accepts hn hpass, rfl⟩

/-- From more seeds and with a higher limit a search reaches more. -/
theorem isNear_mono {n : GraphNode} (hnear : isNear g narrow n = true) :
    isNear g wide n = true := by
  rw [isNear_iff] at hnear ⊢
  intro k hk
  obtain ⟨limit, hlimit, hle⟩ := h.hops k hk
  have hfew : g.Within (seeds g narrow) limit n.id := hnear limit hlimit
  exact (hfew.mono hle).mono_seeds (seeds_subset h)

theorem nodes_sublist : (of g narrow).nodes.Sublist (of g wide).nodes := by
  rw [nodes_of, nodes_of]
  apply filter_sublist_filter
  intro n hn hkept
  obtain ⟨hpass, hnear, hlayer⟩ := keeps_iff.mp hkept
  exact keeps_iff.mpr ⟨h.accepts hn hpass, isNear_mono h hnear, h.layers hlayer⟩

theorem edges_sublist : (of g narrow).edges.Sublist (of g wide).edges := by
  rw [edges_of, edges_of]
  apply filter_sublist_filter
  intro e _ hjoins
  have hids : ((of g narrow).nodes.map (·.id)).Sublist ((of g wide).nodes.map (·.id)) :=
    (nodes_sublist h).map _
  obtain ⟨hsource, htarget⟩ := joins_iff.mp hjoins
  exact joins_iff.mpr ⟨hids.subset hsource, hids.subset htarget⟩

end Growth

/-- **Selections are monotone and closed**, in every graph.  Options that ask for no more than
others select a subsequence of the nodes and of the edges.  A selected edge has both ends among the
selected nodes, an edge with both ends there is selected as often as it occurs, and so is, if
screens are asked for, every screen that passes the filter. -/
theorem of_monotone_closed (g : Graph) :
    (∀ narrow wide : SelectionOptions, narrow.Narrower g wide →
      (of g narrow).nodes.Sublist (of g wide).nodes ∧
        (of g narrow).edges.Sublist (of g wide).edges) ∧
    ∀ options : SelectionOptions,
      (∀ e ∈ (of g options).edges,
        e.source ∈ (of g options).nodes.map (·.id) ∧
          e.target ∈ (of g options).nodes.map (·.id)) ∧
      (∀ e ∈ g.edges, e.source ∈ (of g options).nodes.map (·.id) →
        e.target ∈ (of g options).nodes.map (·.id) →
          (of g options).edges.count e = g.edges.count e) ∧
      ∀ n ∈ g.nodes, n.kind = .screen → ScreenFilter.acceptsAll options.filter n = true →
        NodeKind.screen.layer ∈ options.layers →
          (of g options).nodes.count n = g.nodes.count n := by
  refine ⟨fun narrow wide h => ⟨nodes_sublist h, edges_sublist h⟩, ?_⟩
  intro options
  refine ⟨?_, ?_, ?_⟩
  · intro e he
    exact joins_iff.mp (List.mem_filter.mp he).2
  · intro e _ hsource htarget
    exact List.count_filter (joins_iff.mpr ⟨hsource, htarget⟩)
  · intro n hn hkind hpass hlayer
    refine List.count_filter (keeps_iff.mpr ⟨hpass, isNear_of_screen hn hkind hpass, ?_⟩)
    rw [hkind]
    exact hlayer

/-- Two screens that share an operation, one of them twice in the list of nodes, and an edge that
ends nowhere. -/
def sharedGraph : Graph where
  nodes := [⟨"screen:/a", .screen, "/a", "", .empty⟩, ⟨"screen:/b", .screen, "/b", "", .empty⟩,
    ⟨"gql:query.q", .operation, "query.q", "", .empty⟩, ⟨"screen:/a", .screen, "/a", "", .empty⟩,
    ⟨"resolver:R.q", .resolver, "R.q", "", .empty⟩]
  edges := [⟨"e1", "screen:/a", "gql:query.q", .uses⟩, ⟨"e2", "screen:/b", "gql:query.q", .uses⟩,
    ⟨"e3", "gql:query.q", "resolver:R.q", .resolves⟩, ⟨"e4", "resolver:R.q", "grpc:S.M", .calls⟩]

theorem of_monotone_closed_shared :
    SelectionOptions.Narrower sharedGraph ⟨some (.ofPattern "/a"), ["screen", "resolver"], some 2⟩
        ⟨none, ["grpc", "resolver", "graphql", "screen"], some 3⟩ ∧
      (of sharedGraph ⟨some (.ofPattern "/a"), ["screen", "resolver"], some 2⟩).nodes.map (·.id) =
        ["screen:/a", "screen:/a", "resolver:R.q"] ∧
      (of sharedGraph ⟨some (.ofPattern "/a"), ["screen", "resolver"], some 2⟩).nodes.Sublist
        (of sharedGraph ⟨none, ["grpc", "resolver", "graphql", "screen"], some 3⟩).nodes ∧
      (of sharedGraph ⟨some (.ofPattern "/a"), ["screen", "resolver"], some 2⟩).edges.Sublist
        (of sharedGraph ⟨none, ["grpc", "resolver", "graphql", "screen"], some 3⟩).edges ∧
      (of sharedGraph ⟨some (.ofPattern "/a"), ["screen", "resolver"], some 0⟩).nodes.count
        ⟨"screen:/a", .screen, "/a", "", .empty⟩ = 2 := by
  have hnarrow : SelectionOptions.Narrower sharedGraph
      ⟨some (.ofPattern "/a"), ["screen", "resolver"], some 2⟩
      ⟨none, ["grpc", "resolver", "graphql", "screen"], some 3⟩ := by
    refine ⟨by decide, ?_, fun n _ _ _ => rfl⟩
    intro k hk
    cases hk
    exact ⟨2, rfl, by decide⟩
  have hclosed := of_monotone_closed sharedGraph
  obtain ⟨hnodes, hedges⟩ := hclosed.1 _ _ hnarrow
  have hscreen := (hclosed.2 ⟨some (.ofPattern "/a"), ["screen", "resolver"], some 0⟩).2.2
    ⟨"screen:/a", .screen, "/a", "", .empty⟩ (by decide) rfl (by decide +kernel) (by decide)
  exact ⟨hnarrow, by decide +kernel, hnodes, hedges, hscreen.trans (by decide +kernel)⟩

end Selection

end ApiAtlas
