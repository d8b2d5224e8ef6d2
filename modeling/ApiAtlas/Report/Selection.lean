import ApiAtlas.Graph.Walk
import ApiAtlas.Report.Filter
import ApiAtlas.Text.Blank
set_option autoImplicit false

/-!
# Selections of a graph

The part of a graph to show: the nodes of chosen layers whose screens pass a filter, possibly only
those near such screens, and the edges between them.
-/

namespace ApiAtlas

/-- The layers of a comma-separated list; unknown names are passed over. -/
def parseLayers (text : String) : List String :=
  let names := (Text.splitBy ',' text.toList).map fun piece => String.ofList (Text.trim piece)
  names.filter fun name => NodeKind.all.any (·.layer == name)

/-- What to select. -/
structure SelectionOptions where
  filter : Option ScreenFilter := none
  layers : List String := NodeKind.all.map (·.layer)
  /-- Keep only nodes within this many steps of the screens that pass the filter. -/
  hops : Option Nat := none
  deriving DecidableEq, Repr, Inhabited

/-- A part of a graph. -/
structure Selection where
  nodes : List GraphNode
  edges : List GraphEdge
  deriving DecidableEq, Inhabited

namespace Selection

/-- The identifiers near the screens that pass the filter, if a limit is given. -/
def near? (g : Graph) (options : SelectionOptions) : Option (List String) :=
  options.hops.map fun hops =>
    let seeds := (g.nodesOf .screen).filter (ScreenFilter.acceptsAll options.filter)
    g.reachable (seeds.map (·.id)) hops

/-- The part of a graph that the options describe. -/
def of (g : Graph) (options : SelectionOptions) : Selection :=
  let near := near? g options
  let nodes := g.nodes.filter fun n =>
    ScreenFilter.acceptsAll options.filter n && near.all (·.contains n.id)
      && options.layers.contains n.kind.layer
  let kept := nodes.map (·.id)
  ⟨nodes, g.edges.filter fun e => kept.contains e.source && kept.contains e.target⟩

/-- The selected nodes layer by layer; empty layers are left out. -/
def byLayer (s : Selection) : List (String × List GraphNode) :=
  (NodeKind.all.map fun kind => (kind.layer, s.nodes.filter (·.kind == kind))).filter
    (!·.2.isEmpty)

end Selection

end ApiAtlas
