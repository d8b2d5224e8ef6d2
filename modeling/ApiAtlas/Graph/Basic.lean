import ApiAtlas.Interface.Basic
import ApiAtlas.Json.Value
import ApiAtlas.Operation.Basic
import ApiAtlas.Resolver.Basic
import ApiAtlas.Screen.Basic
set_option autoImplicit false

/-!
# The dependency graph

The entities of the four layers as nodes of one shape, and edges from what uses to what is used.  A
graph also carries an index of direct uses and what is known about its making.  Nothing here demands
that identifiers be distinct or that edges end in nodes: a graph may have been read from anywhere.
-/

namespace ApiAtlas

/-- The layer a node belongs to. -/
inductive NodeKind
  | screen
  | operation
  | resolver
  | rpc
  deriving DecidableEq, Repr, Inhabited

namespace NodeKind

/-- All kinds, from what uses to what is used. -/
def all : List NodeKind := [.screen, .operation, .resolver, .rpc]

/-- The word for a kind in a graph document. -/
def name : NodeKind → String
  | .screen => "screen"
  | .operation => "gqlField"
  | .resolver => "resolver"
  | .rpc => "grpc"

/-- The word for the layer in a selection. -/
def layer : NodeKind → String
  | .screen => "screen"
  | .operation => "graphql"
  | .resolver => "resolver"
  | .rpc => "grpc"

/-- Nodes of this kind are interfaces that screens can depend on. -/
def isApi : NodeKind → Bool
  | .operation | .rpc => true
  | .screen | .resolver => false

end NodeKind

/-- How one node depends on another. -/
inductive EdgeKind
  /-- A screen issues an operation. -/
  | uses
  /-- An operation is answered by a resolver. -/
  | resolves
  /-- A resolver calls a gRPC method. -/
  | calls
  deriving DecidableEq, Repr, Inhabited

/-- The word for a kind of edge. -/
def EdgeKind.name : EdgeKind → String
  | .uses => "uses"
  | .resolves => "resolves"
  | .calls => "calls"

/-- A node of the graph. -/
structure GraphNode where
  id : String
  kind : NodeKind
  label : String
  group : String
  details : Dict Json := .empty
  deriving DecidableEq, Inhabited

/-- An edge of the graph, from what uses to what is used. -/
structure GraphEdge where
  id : String
  source : String
  target : String
  kind : EdgeKind
  deriving DecidableEq, Repr, Inhabited

/-- Which screens use which interfaces directly, and which screens share the front of their
routes. -/
structure GraphIndex where
  apiToScreens : Dict (List String) := .empty
  screenToApis : Dict (List String) := .empty
  routeGroups : Dict (List String) := .empty
  deriving DecidableEq, Inhabited

/-- What is known about the making of a graph. -/
structure GraphMeta where
  warnings : List String := []
  timestamp : String := ""
  settings : Option Settings := none
  deriving DecidableEq, Inhabited

/-- The version of the graph documents that are written. -/
def graphVersion : String := "1.0"

/-- A dependency graph. -/
structure Graph where
  version : String := graphVersion
  nodes : List GraphNode := []
  edges : List GraphEdge := []
  index : GraphIndex := {}
  about : GraphMeta := {}
  deriving DecidableEq, Inhabited

namespace GraphNode

/-- The file a node comes from. -/
def file? (node : GraphNode) : Option String :=
  match node.details.get? "file" with
  | some (.text path) => some path
  | _ => none

/-- What a path that is no text leaves when it has to be written down. -/
def unwritablePath : Panic where
  text := some ("called `Result::unwrap()` on an `Err` value: "
    ++ "Error(\"path contains invalid UTF-8 characters\", line: 0, column: 0)")

/-- The text of a path. A node cannot be made without it. -/
def written (path : RawText) : Run String :=
  match path.text? with
  | some text => .ok text
  | none => .error unwritablePath

/-- The node of a screen in a file. -/
def screenIn (file : String) (s : Screen) : GraphNode :=
  ⟨s.id, .screen, s.route, "screens", .ofList
    [("file", .text file), ("namespace", .ofOption (s.space.map .text)),
     ("type", .text s.style.name)]⟩

/-- The node of an operation in a file. -/
def operationIn (file : String) (op : ApiOperation) : GraphNode :=
  ⟨op.id, .operation, op.kind.name ++ "." ++ op.field, "graphql", .ofList
    [("operationName", .ofOption (op.name.map .text)), ("file", .text file)]⟩

/-- The node of a resolver in a file. -/
def resolverIn (file : String) (r : Resolver) : GraphNode :=
  ⟨r.id, .resolver, r.owner ++ "." ++ r.method, "bff", .ofList
    [("file", .text file), ("graphqlName", .text r.exposedName), ("type", .text r.kind.name)]⟩

/-- The node of a gRPC method in a file. -/
def rpcIn (file : String) (m : RpcMethod) : GraphNode :=
  ⟨m.id, .rpc, m.service ++ "." ++ m.name, "grpc", .ofList
    [("file", .text file), ("package", .text m.package), ("inputType", .text m.inputType),
     ("outputType", .text m.outputType)]⟩

/-- The node of a screen. -/
def ofScreen (s : Screen) : Run GraphNode := do return screenIn (← written s.file) s

/-- The node of an operation. -/
def ofOperation (op : ApiOperation) : Run GraphNode := do return operationIn (← written op.file) op

/-- The node of a resolver. -/
def ofResolver (r : Resolver) : Run GraphNode := do return resolverIn (← written r.file) r

/-- The node of a gRPC method. -/
def ofRpc (m : RpcMethod) : Run GraphNode := do return rpcIn (← written m.file) m

end GraphNode

/-- Counts of a graph. -/
structure GraphStats where
  nodes : Nat
  edges : Nat
  screens : Nat
  operations : Nat
  resolvers : Nat
  rpcMethods : Nat
  warnings : Nat
  deriving DecidableEq, Repr, Inhabited

/-- The counts as lines of text. The warnings are counted elsewhere. -/
def GraphStats.lines (s : GraphStats) : List String :=
  ["  Nodes: " ++ toString s.nodes, "  Edges: " ++ toString s.edges,
   "  Screens: " ++ toString s.screens, "  GraphQL Fields: " ++ toString s.operations,
   "  Resolvers: " ++ toString s.resolvers, "  gRPC Methods: " ++ toString s.rpcMethods]

namespace Graph

/-- A graph without nodes. -/
def empty (warnings : List String) (settings : Option Settings) : Graph :=
  { about := { warnings, settings } }

/-- The first node with an identifier. -/
def node? (g : Graph) (id : String) : Option GraphNode := g.nodes.find? (·.id == id)

/-- The nodes of a kind. -/
def nodesOf (g : Graph) (kind : NodeKind) : List GraphNode := g.nodes.filter (·.kind == kind)

/-- The edges of a kind. -/
def edgesOf (g : Graph) (kind : EdgeKind) : List GraphEdge := g.edges.filter (·.kind == kind)

/-- The counts of a graph. -/
def stats (g : Graph) : GraphStats where
  nodes := g.nodes.length
  edges := g.edges.length
  screens := (g.nodesOf .screen).length
  operations := (g.nodesOf .operation).length
  resolvers := (g.nodesOf .resolver).length
  rpcMethods := (g.nodesOf .rpc).length
  warnings := g.about.warnings.length

/-- Add a node behind all others; the index stays as it is. -/
def addNode (g : Graph) (node : GraphNode) : Graph := { g with nodes := g.nodes ++ [node] }

/-- Take away every node with an identifier; edges and index stay as they are. -/
def removeNode (g : Graph) (id : String) : Graph :=
  { g with nodes := g.nodes.filter (·.id != id) }

/-- Add an edge behind all others; the index stays as it is. -/
def addEdge (g : Graph) (edge : GraphEdge) : Graph := { g with edges := g.edges ++ [edge] }

/-- Take away every edge with an identifier; the index stays as it is. -/
def removeEdge (g : Graph) (id : String) : Graph :=
  { g with edges := g.edges.filter (·.id != id) }

/-- Say when the graph was made. -/
def stamped (g : Graph) (timestamp : String) : Graph :=
  { g with about := { g.about with timestamp } }

end Graph

end ApiAtlas
