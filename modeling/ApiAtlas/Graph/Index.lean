import ApiAtlas.Graph.Basic
set_option autoImplicit false

/-!
# Graph: the index

The index is computed from nodes and edges at once and never patched.  A direct use is an edge from
a screen to an interface; both directions of lookup come from the one list of direct uses.
-/

namespace ApiAtlas

namespace GraphIndex

/-- The kind of an identifier: that of the last node carrying it. -/
def kindOf? (nodes : List GraphNode) (id : String) : Option NodeKind :=
  (nodes.reverse.find? (·.id == id)).map (·.kind)

/-- The edge goes from a screen to an interface. -/
def isDirectUse (nodes : List GraphNode) (e : GraphEdge) : Bool :=
  match kindOf? nodes e.source, kindOf? nodes e.target with
  | some .screen, some kind => kind.isApi
  | _, _ => false

/-- Append an element unless it is there. -/
def pushUnique (items : List String) (item : String) : List String :=
  if items.contains item then items else items ++ [item]

/-- Enter a pair unless it is there. -/
def enter (table : Dict (List String)) (key value : String) : Dict (List String) :=
  table.alter key fun old => pushUnique (old.getD []) value

/-- The front of a route: its first segment that is not empty. -/
def routeGroup? (route : String) : Option String :=
  ((Text.splitBy '/' route.toList).find? (!·.isEmpty)).map fun segment =>
    "screen:/" ++ String.ofList segment ++ "/*"

/-- Enter a screen into the group of its route. -/
def enterRoute (table : Dict (List String)) (node : GraphNode) : Dict (List String) :=
  match routeGroup? node.label with
  | some key => table.alter key fun old => old.getD [] ++ [node.id]
  | none => table

/-- The index of nodes and edges. -/
def build (nodes : List GraphNode) (edges : List GraphEdge) : GraphIndex :=
  let uses := edges.filter (isDirectUse nodes)
  { apiToScreens := uses.foldl (fun t e => enter t e.target e.source) .empty
    screenToApis := uses.foldl (fun t e => enter t e.source e.target) .empty
    routeGroups := (nodes.filter (·.kind == .screen)).foldl enterRoute .empty }

/-- The screens that use an interface directly. -/
def screensFor (index : GraphIndex) (api : String) : List String :=
  (index.apiToScreens.get? api).getD []

/-- The interfaces that a screen uses directly. -/
def apisFor (index : GraphIndex) (screen : String) : List String :=
  (index.screenToApis.get? screen).getD []

end GraphIndex

/-- The graph with its index computed anew. -/
def Graph.reindexed (g : Graph) : Graph := { g with index := .build g.nodes g.edges }

end ApiAtlas
