import ApiAtlas.Report.Filter
set_option autoImplicit false

/-!
# The difference of two graphs

What was added and what was removed, by identifier.  A filter narrows the lists of nodes; the lists
of edges and the counts do not know it.
-/

namespace ApiAtlas

/-- Counts of a difference. -/
structure DifferenceSummary where
  nodesAdded : Nat
  nodesRemoved : Nat
  edgesAdded : Nat
  edgesRemoved : Nat
  deriving DecidableEq, Repr, Inhabited

/-- All changes. -/
def DifferenceSummary.total (s : DifferenceSummary) : Nat :=
  s.nodesAdded + s.nodesRemoved + s.edgesAdded + s.edgesRemoved

/-- The counts as lines of text. -/
def DifferenceSummary.lines (s : DifferenceSummary) : List String :=
  ["  Total changes: " ++ toString s.total,
   "  Node changes: +" ++ toString s.nodesAdded ++ " -" ++ toString s.nodesRemoved,
   "  Edge changes: +" ++ toString s.edgesAdded ++ " -" ++ toString s.edgesRemoved]

/-- What changed from one graph to another. -/
structure Difference where
  addedNodes : List GraphNode
  removedNodes : List GraphNode
  addedEdges : List GraphEdge
  removedEdges : List GraphEdge
  summary : DifferenceSummary
  deriving DecidableEq, Inhabited

namespace Difference

/-- The items whose identifier does not occur among the others. -/
def missingFrom {α : Type} (id : α → String) (items others : List α) : List α :=
  items.filter fun a => !others.any fun b => id b == id a

/-- The difference of two graphs. -/
def between (old new : Graph) (filter : Option ScreenFilter) : Difference :=
  let addedNodes := missingFrom GraphNode.id new.nodes old.nodes
  let removedNodes := missingFrom GraphNode.id old.nodes new.nodes
  let addedEdges := missingFrom GraphEdge.id new.edges old.edges
  let removedEdges := missingFrom GraphEdge.id old.edges new.edges
  { addedNodes := addedNodes.filter (ScreenFilter.acceptsAll filter)
    removedNodes := removedNodes.filter (ScreenFilter.acceptsAll filter)
    addedEdges, removedEdges
    summary := ⟨addedNodes.length, removedNodes.length, addedEdges.length, removedEdges.length⟩ }

/-- Nothing changed. -/
def isEmpty (d : Difference) : Bool := d.summary.total == 0

end Difference

end ApiAtlas
