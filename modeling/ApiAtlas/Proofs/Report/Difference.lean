import Mathlib.Data.Finset.Basic
import ApiAtlas.Proofs.Graph.WellFormed
import ApiAtlas.Proofs.Report.Filter
import ApiAtlas.Report.Difference
set_option autoImplicit false

/-!
# Differences

A difference compares nodes and edges by identifier.  For any two graphs it leads from the old
identifiers to the new ones and back; a filter shortens the lists of nodes and nothing else.

The identifier of a node says what the node is; the identifier of an edge is its number in one
build.  So between two built graphs the edges that were added or removed are those that one list has
beyond the length of the other, and an empty difference says that the graphs have the same nodes and
equally many edges, and nothing about what the edges connect.
-/

namespace ApiAtlas

namespace Difference

/-! ## Items that are missing -/

section Missing

variable {α : Type} (id : α → String)

theorem mem_missingFrom {items others : List α} {a : α} :
    a ∈ missingFrom id items others ↔ a ∈ items ∧ id a ∉ others.map id := by
  simp only [missingFrom, List.mem_filter, Bool.not_eq_true', List.any_eq_false, beq_iff_eq,
    List.mem_map, not_exists, not_and]

theorem missingFrom_eq_nil_iff (items others : List α) :
    missingFrom id items others = [] ↔ ∀ x ∈ items.map id, x ∈ others.map id := by
  simp only [List.eq_nil_iff_forall_not_mem, mem_missingFrom, List.forall_mem_map, not_and, not_not]

theorem missingFrom_eq_self_iff (items others : List α) :
    missingFrom id items others = items ↔ ∀ x ∈ items.map id, x ∉ others.map id := by
  rw [missingFrom, List.filter_eq_self, List.forall_mem_map]
  refine forall₂_congr fun a _ => ?_
  simp only [Bool.not_eq_true', List.any_eq_false, beq_iff_eq, List.mem_map, not_exists, not_and]

theorem missingFrom_self (items : List α) : missingFrom id items items = [] :=
  (missingFrom_eq_nil_iff id items items).mpr fun _ h => h

/-- The identifiers of items. -/
def idsOf (items : List α) : Finset String := (items.map id).toFinset

theorem idsOf_missingFrom (items others : List α) :
    idsOf id (missingFrom id items others) = idsOf id items \ idsOf id others := by
  ext x
  simp only [idsOf, List.mem_toFinset, Finset.mem_sdiff, List.mem_map (l := items),
    List.mem_map (l := missingFrom id items others), mem_missingFrom]
  constructor
  · rintro ⟨a, ⟨ha, hmissing⟩, rfl⟩
    exact ⟨⟨a, ha, rfl⟩, hmissing⟩
  · rintro ⟨⟨a, ha, rfl⟩, hmissing⟩
    exact ⟨a, ⟨ha, hmissing⟩, rfl⟩

/-- Without the removed identifiers and with the added ones, the old identifiers are the new ones;
what is removed is gone, and what is added was not there. -/
structure Balanced (old removed added new : Finset String) : Prop where
  reaches : (old \ removed) ∪ added = new
  removed_gone : Disjoint removed new
  added_fresh : Disjoint added old

theorem missingFrom_balanced (old new : List α) :
    Balanced (idsOf id old) (idsOf id (missingFrom id old new)) (idsOf id (missingFrom id new old))
      (idsOf id new) := by
  rw [idsOf_missingFrom, idsOf_missingFrom]
  refine ⟨?_, Finset.sdiff_disjoint, Finset.sdiff_disjoint⟩
  calc (idsOf id old \ (idsOf id old \ idsOf id new)) ∪ (idsOf id new \ idsOf id old)
      = (idsOf id new \ idsOf id old) ∪ (idsOf id new ∩ idsOf id old) := by
        rw [Finset.sdiff_sdiff_self_left, Finset.union_comm, Finset.inter_comm]
    _ = idsOf id new := Finset.sdiff_union_inter _ _

end Missing

/-! ## Any two graphs -/

/-- The difference the other way round. -/
def reversed (d : Difference) : Difference where
  addedNodes := d.removedNodes
  removedNodes := d.addedNodes
  addedEdges := d.removedEdges
  removedEdges := d.addedEdges
  summary :=
    { nodesAdded := d.summary.nodesRemoved
      nodesRemoved := d.summary.nodesAdded
      edgesAdded := d.summary.edgesRemoved
      edgesRemoved := d.summary.edgesAdded }

section Laws

variable (old new : Graph) (filter : Option ScreenFilter)

theorem between_reversed : between new old filter = (between old new filter).reversed := rfl

theorem addedNodes_between_none :
    (between old new none).addedNodes = missingFrom GraphNode.id new.nodes old.nodes :=
  List.filter_eq_self.mpr fun _ _ => rfl

theorem removedNodes_between_none :
    (between old new none).removedNodes = missingFrom GraphNode.id old.nodes new.nodes :=
  addedNodes_between_none new old

/-- The lists of nodes lose the screens that the filter rejects, and the rest stays. -/
theorem between_filtered :
    between old new filter =
      { between old new none with
        addedNodes := (between old new none).addedNodes.filter
          fun n => ¬ ScreenFilter.Rejects filter n
        removedNodes := (between old new none).removedNodes.filter
          fun n => ¬ ScreenFilter.Rejects filter n } := by
  rw [addedNodes_between_none, removedNodes_between_none, ← ScreenFilter.filter_acceptsAll,
    ← ScreenFilter.filter_acceptsAll]
  rfl

theorem summary_between_none :
    (between old new none).summary =
      { nodesAdded := (between old new none).addedNodes.length
        nodesRemoved := (between old new none).removedNodes.length
        edgesAdded := (between old new none).addedEdges.length
        edgesRemoved := (between old new none).removedEdges.length } := by
  rw [addedNodes_between_none, removedNodes_between_none]
  rfl

theorem between_self (g : Graph) : between g g filter = ⟨[], [], [], [], ⟨0, 0, 0, 0⟩⟩ := by
  simp [between, missingFrom_self]

end Laws

/-- **A difference is exact and symmetric by identifier**, for any two graphs: it leads from the old
identifiers to the new ones, the other way round it is the same with added and removed exchanged, a
filter takes the screens that it rejects out of the lists of nodes and changes nothing else, the
counts are those of the lists that no filter shortened, and nothing differs from itself. -/
theorem between_exact (old new : Graph) (filter : Option ScreenFilter) :
    Balanced (idsOf GraphNode.id old.nodes)
        (idsOf GraphNode.id (between old new none).removedNodes)
        (idsOf GraphNode.id (between old new none).addedNodes)
        (idsOf GraphNode.id new.nodes) ∧
      Balanced (idsOf GraphEdge.id old.edges)
        (idsOf GraphEdge.id (between old new filter).removedEdges)
        (idsOf GraphEdge.id (between old new filter).addedEdges)
        (idsOf GraphEdge.id new.edges) ∧
      between new old filter = (between old new filter).reversed ∧
      between old new filter =
        { between old new none with
          addedNodes := (between old new none).addedNodes.filter
            fun n => ¬ ScreenFilter.Rejects filter n
          removedNodes := (between old new none).removedNodes.filter
            fun n => ¬ ScreenFilter.Rejects filter n } ∧
      (between old new filter).summary =
        { nodesAdded := (between old new none).addedNodes.length
          nodesRemoved := (between old new none).removedNodes.length
          edgesAdded := (between old new none).addedEdges.length
          edgesRemoved := (between old new none).removedEdges.length } ∧
      ∀ g, between g g filter = ⟨[], [], [], [], ⟨0, 0, 0, 0⟩⟩ ∧
        (between g g filter).isEmpty = true := by
  refine ⟨?_, missingFrom_balanced GraphEdge.id old.edges new.edges,
    between_reversed old new filter, between_filtered old new filter,
    summary_between_none old new, fun g => ?_⟩
  · rw [addedNodes_between_none, removedNodes_between_none]
    exact missingFrom_balanced GraphNode.id old.nodes new.nodes
  · rw [between_self]
    exact ⟨rfl, rfl⟩

/-- Nothing changed exactly if both graphs have the same identifiers, of nodes and of edges. -/
theorem isEmpty_between_iff (old new : Graph) (filter : Option ScreenFilter) :
    (between old new filter).isEmpty = true ↔
      (∀ x, x ∈ old.nodes.map (·.id) ↔ x ∈ new.nodes.map (·.id)) ∧
        ∀ x, x ∈ old.edges.map (·.id) ↔ x ∈ new.edges.map (·.id) := by
  simp only [isEmpty, between, DifferenceSummary.total, beq_iff_eq, Nat.add_eq_zero_iff,
    List.length_eq_zero_iff, missingFrom_eq_nil_iff]
  constructor
  · rintro ⟨⟨⟨haddedNodes, hremovedNodes⟩, haddedEdges⟩, hremovedEdges⟩
    exact ⟨fun x => ⟨hremovedNodes x, haddedNodes x⟩, fun x => ⟨hremovedEdges x, haddedEdges x⟩⟩
  · rintro ⟨hnodes, hedges⟩
    exact ⟨⟨⟨fun x => (hnodes x).mpr, fun x => (hnodes x).mp⟩, fun x => (hedges x).mpr⟩,
      fun x => (hedges x).mp⟩

end Difference

/-! ## Built graphs -/

namespace Graph

/-- The number of an edge can be read off its identifier. -/
theorem edgeNumber_injective {i j : Nat} (h : "e" ++ toString (i + 1) = "e" ++ toString (j + 1)) :
    i = j := by
  have hnumber : (i + 1).repr = (j + 1).repr := (String.append_right_inj "e").mp h
  rw [Nat.repr_eq_ofList_toDigits, Nat.repr_eq_ofList_toDigits, String.ofList_inj] at hnumber
  -- Reading the digits gives the number back.
  have hread := congrArg (Nat.ofDigitChars 10 · 0) hnumber
  simp only [Nat.ofDigitChars_ten_toDigits] at hread
  omega

/-- The edges carry the numbers from one on, in order. -/
def Numbered (edges : List GraphEdge) : Prop :=
  ∀ (k : Nat) (h : k < edges.length), edges[k].id = "e" ++ toString (k + 1)

theorem numbered_build (engine : RegexEngine) (settings : Settings) (chain : MatcherChain)
    (files : List SourceFile) : Numbered (build engine settings chain files).edges :=
  build_induction (P := fun g => Numbered g.edges) engine settings chain files
    (edge_id_assembled settings chain _ files) fun k h => absurd h (Nat.not_lt_zero k)

namespace Numbered

variable {edges others : List GraphEdge} (h : Numbered edges)
include h

/-- The identifiers of numbered edges are the numbers up to the number of edges. -/
theorem mem_ids_iff {x : String} :
    x ∈ edges.map (·.id) ↔ ∃ k, k < edges.length ∧ x = "e" ++ toString (k + 1) := by
  constructor
  · intro hx
    obtain ⟨e, he, rfl⟩ := List.mem_map.mp hx
    obtain ⟨k, hk, rfl⟩ := List.mem_iff_getElem.mp he
    exact ⟨k, hk, h k hk⟩
  · rintro ⟨k, hk, rfl⟩
    exact List.mem_map.mpr ⟨_, List.getElem_mem hk, h k hk⟩

/-- The number of an edge occurs among others exactly if they reach its position. -/
theorem id_mem_iff (hothers : Numbered others) {k : Nat} (hk : k < edges.length) :
    edges[k].id ∈ others.map (·.id) ↔ k < others.length := by
  rw [hothers.mem_ids_iff, h k hk]
  constructor
  · rintro ⟨j, hj, hid⟩
    rwa [edgeNumber_injective hid]
  · intro hlt
    exact ⟨k, hlt, rfl⟩

/-- Of numbered edges those are missing from others that stand beyond their number. -/
theorem missingFrom_eq_drop (hothers : Numbered others) :
    Difference.missingFrom GraphEdge.id edges others = edges.drop others.length := by
  have hfront : Difference.missingFrom GraphEdge.id (edges.take others.length) others = [] := by
    rw [Difference.missingFrom_eq_nil_iff, List.forall_mem_map]
    intro e he
    obtain ⟨k, hk, rfl⟩ := List.mem_take_iff_getElem.mp he
    exact (h.id_mem_iff hothers _).mpr (by omega)
  have hback : Difference.missingFrom GraphEdge.id (edges.drop others.length) others =
      edges.drop others.length := by
    rw [Difference.missingFrom_eq_self_iff, List.forall_mem_map]
    intro e he
    obtain ⟨k, hk, rfl⟩ := List.mem_drop_iff_getElem.mp he
    exact (h.id_mem_iff hothers _).not.mpr (by omega)
  calc Difference.missingFrom GraphEdge.id edges others
      = Difference.missingFrom GraphEdge.id
          (edges.take others.length ++ edges.drop others.length) others := by
        rw [List.take_append_drop]
    _ = Difference.missingFrom GraphEdge.id (edges.take others.length) others ++
          Difference.missingFrom GraphEdge.id (edges.drop others.length) others :=
        List.filter_append _ _
    _ = edges.drop others.length := by rw [hfront, hback, List.nil_append]

theorem ids_subset_iff (hothers : Numbered others) :
    (∀ x ∈ edges.map (·.id), x ∈ others.map (·.id)) ↔ edges.length ≤ others.length := by
  rw [← List.drop_eq_nil_iff, ← h.missingFrom_eq_drop hothers, Difference.missingFrom_eq_nil_iff]

end Numbered

/-- Built graphs have the same edge identifiers exactly if they have equally many edges. -/
theorem edgeIds_build_eq_iff (engine engine' : RegexEngine) (settings settings' : Settings)
    (chain chain' : MatcherChain) (files files' : List SourceFile) :
    (∀ x, x ∈ (build engine settings chain files).edges.map (·.id) ↔
        x ∈ (build engine' settings' chain' files').edges.map (·.id)) ↔
      (build engine settings chain files).edges.length =
        (build engine' settings' chain' files').edges.length := by
  have hfirst := numbered_build engine settings chain files
  have hsecond := numbered_build engine' settings' chain' files'
  constructor
  · intro h
    exact Nat.le_antisymm ((hfirst.ids_subset_iff hsecond).mp fun x => (h x).mp)
      ((hsecond.ids_subset_iff hfirst).mp fun x => (h x).mpr)
  · intro h x
    exact ⟨(hfirst.ids_subset_iff hsecond).mpr (Nat.le_of_eq h) x,
      (hsecond.ids_subset_iff hfirst).mpr (Nat.le_of_eq h.symm) x⟩

end Graph

/-- **Between built graphs the difference of the edges only measures length**: the added edges are
those of the new graph from the number of the old ones on, the removed edges those of the old graph
from the number of the new ones on, and one of the two lists is empty. -/
theorem Difference.edges_between_build (engine engine' : RegexEngine)
    (settings settings' : Settings) (chain chain' : MatcherChain)
    (files files' : List SourceFile) (filter : Option ScreenFilter) :
    (between (Graph.build engine settings chain files) (Graph.build engine' settings' chain' files')
        filter).addedEdges =
      (Graph.build engine' settings' chain' files').edges.drop
        (Graph.build engine settings chain files).edges.length ∧
    (between (Graph.build engine settings chain files) (Graph.build engine' settings' chain' files')
        filter).removedEdges =
      (Graph.build engine settings chain files).edges.drop
        (Graph.build engine' settings' chain' files').edges.length ∧
    ((between (Graph.build engine settings chain files)
        (Graph.build engine' settings' chain' files') filter).addedEdges = [] ∨
      (between (Graph.build engine settings chain files)
        (Graph.build engine' settings' chain' files') filter).removedEdges = []) := by
  have hold := Graph.numbered_build engine settings chain files
  have hnew := Graph.numbered_build engine' settings' chain' files'
  have hadded := hnew.missingFrom_eq_drop hold
  have hremoved := hold.missingFrom_eq_drop hnew
  refine ⟨hadded, hremoved, ?_⟩
  rcases Nat.le_total (Graph.build engine' settings' chain' files').edges.length
      (Graph.build engine settings chain files).edges.length with hle | hle
  · exact .inl (hadded.trans (List.drop_eq_nil_of_le hle))
  · exact .inr (hremoved.trans (List.drop_eq_nil_of_le hle))

/-- **An empty difference of two built graphs means the same nodes and equally many edges**, and
conversely; and equally many edges are the same as the same set of edge identifiers.  What the edges
connect is not compared. -/
theorem Difference.isEmpty_between_build_iff (engine engine' : RegexEngine)
    (settings settings' : Settings) (chain chain' : MatcherChain)
    (files files' : List SourceFile) :
    ((between (Graph.build engine settings chain files)
        (Graph.build engine' settings' chain' files') none).isEmpty = true ↔
      (∀ x, x ∈ (Graph.build engine settings chain files).nodes.map (·.id) ↔
        x ∈ (Graph.build engine' settings' chain' files').nodes.map (·.id)) ∧
      (Graph.build engine settings chain files).edges.length =
        (Graph.build engine' settings' chain' files').edges.length) ∧
    ((Graph.build engine settings chain files).edges.length =
        (Graph.build engine' settings' chain' files').edges.length ↔
      ∀ x, x ∈ (Graph.build engine settings chain files).edges.map (·.id) ↔
        x ∈ (Graph.build engine' settings' chain' files').edges.map (·.id)) := by
  have hedges := Graph.edgeIds_build_eq_iff engine engine' settings settings' chain chain' files
    files'
  exact ⟨by rw [isEmpty_between_iff, hedges], hedges.symm⟩

open Syntax in
/-- Two pages, each of which uses one operation. -/
def Graph.twoPages (first second : String) : List SourceFile :=
  [⟨"app/a/page.tsx", "", .script, some [.call (.identifier "useQuery") [.identifier first]]⟩,
   ⟨"app/b/page.tsx", "", .script, some [.call (.identifier "useQuery") [.identifier second]]⟩]

/-- The settings of a repository that is one front end. -/
def Graph.pageSettings : Settings :=
  { apps := .ofList [("web", { kind := .frontEnd, path := "." })] }

/-- When two pages exchange the operations they use, every edge connects something else and the
difference is empty. -/
theorem Difference.isEmpty_between_exchanged :
    (between (Graph.build .roomy Graph.pageSettings .standard (Graph.twoPages "X" "Y"))
        (Graph.build .roomy Graph.pageSettings .standard (Graph.twoPages "Y" "X")) none).isEmpty =
          true ∧
      ¬ ∀ l, l ∈ (Graph.build .roomy Graph.pageSettings .standard
            (Graph.twoPages "X" "Y")).edges.map GraphEdge.link ↔
          l ∈ (Graph.build .roomy Graph.pageSettings .standard
            (Graph.twoPages "Y" "X")).edges.map GraphEdge.link := by
  refine ⟨by decide +kernel, fun h => ?_⟩
  have hold := (h ⟨"screen:/a", "gql:query.X", .uses⟩).mp (by decide +kernel)
  exact absurd hold (by decide +kernel)

end ApiAtlas
