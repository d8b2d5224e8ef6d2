import ApiAtlas.Graph.Codec
import ApiAtlas.Report.Difference
import ApiAtlas.Report.Impact
set_option autoImplicit false

/-!
# Reports as JSON
-/

namespace ApiAtlas

/-- A screen that a change reaches as JSON; an unknown file is left out. -/
def ImpactedScreen.toJson (s : ImpactedScreen) : Json :=
  .object ([("id", .text s.id), ("label", .text s.label)]
    ++ Json.memberOf "file" (s.file.map .text)
    ++ [("path", Json.texts s.path)])

/-- An impact as JSON. -/
def Impact.toJson (i : Impact) : Json :=
  .object [("api", .text i.api), ("screens", .array (i.screens.map ImpactedScreen.toJson)),
    ("filteredOut", Json.nat i.filteredOut)]

/-- The counts of a difference as JSON. -/
def DifferenceSummary.toJson (s : DifferenceSummary) : Json :=
  .object [("nodesAdded", Json.nat s.nodesAdded), ("nodesRemoved", Json.nat s.nodesRemoved),
    ("edgesAdded", Json.nat s.edgesAdded), ("edgesRemoved", Json.nat s.edgesRemoved)]

/-- A difference as JSON. -/
def Difference.toJson (d : Difference) : Json :=
  .object [("addedNodes", .array (d.addedNodes.map GraphNode.toJson)),
    ("removedNodes", .array (d.removedNodes.map GraphNode.toJson)),
    ("addedEdges", .array (d.addedEdges.map GraphEdge.toJson)),
    ("removedEdges", .array (d.removedEdges.map GraphEdge.toJson)),
    ("summary", d.summary.toJson)]

/-- The counts of a graph as JSON. -/
def GraphStats.toJson (s : GraphStats) : Json :=
  .object [("nodes", Json.nat s.nodes), ("edges", Json.nat s.edges),
    ("screens", Json.nat s.screens), ("operations", Json.nat s.operations),
    ("resolvers", Json.nat s.resolvers), ("rpc_methods", Json.nat s.rpcMethods),
    ("warnings", Json.nat s.warnings)]

end ApiAtlas
