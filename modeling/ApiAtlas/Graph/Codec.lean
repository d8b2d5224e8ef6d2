import ApiAtlas.Graph.Basic
import ApiAtlas.Json.Printer
import ApiAtlas.Settings.Codec
set_option autoImplicit false

/-!
# Graphs as JSON documents

A document holds everything a graph holds, the settings only if it has any.  It is written over
several lines.  Reading demands all sections of a document, while details, index tables, warnings
and time may be missing.
-/

namespace ApiAtlas

open Json (Record Field Decoder)

/-- The words for the kinds of nodes. -/
def NodeKind.words : List (String × NodeKind) := NodeKind.all.map fun k => (k.name, k)

/-- The words for the kinds of edges. -/
def EdgeKind.words : List (String × EdgeKind) :=
  [EdgeKind.uses, .resolves, .calls].map fun k => (k.name, k)

/-- How many containers may stand around and in a value of a document, less one. -/
def nestingLimit : Nat := 128

/-- How many containers of a document stand around a detail of a node. -/
def detailDepth : Nat := 4

/-- A node as JSON. -/
def GraphNode.toJson (n : GraphNode) : Json :=
  .object [("id", .text n.id), ("type", .text n.kind.name), ("label", .text n.label),
    ("group", .text n.group), ("meta", .object n.details.entries)]

/-- Nodes in JSON. -/
def GraphNode.record : Record GraphNode where
  name := "GraphNode"
  start := ⟨"", .screen, "", "", .empty⟩
  fields :=
    [.of "id" .required .text fun s id => { s with id },
     .of "type" .required (.variant NodeKind.words) fun s kind => { s with kind },
     .of "label" .required .text fun s label => { s with label },
     .of "group" .required .text fun s group => { s with group },
     .of "meta" .defaulted (.dict (.any (nestingLimit - detailDepth))) fun s details =>
       { s with details }]

/-- An edge as JSON. -/
def GraphEdge.toJson (e : GraphEdge) : Json :=
  .object [("id", .text e.id), ("from", .text e.source), ("to", .text e.target),
    ("kind", .text e.kind.name)]

/-- Edges in JSON. -/
def GraphEdge.record : Record GraphEdge where
  name := "GraphEdge"
  start := ⟨"", "", "", .uses⟩
  fields :=
    [.of "id" .required .text fun s id => { s with id },
     .of "from" .required .text fun s source => { s with source },
     .of "to" .required .text fun s target => { s with target },
     .of "kind" .required (.variant EdgeKind.words) fun s kind => { s with kind }]

/-- An index as JSON. -/
def GraphIndex.toJson (i : GraphIndex) : Json :=
  .object [("apiToScreens", i.apiToScreens.toJson Json.texts),
    ("screenToApis", i.screenToApis.toJson Json.texts),
    ("routeGroups", i.routeGroups.toJson Json.texts)]

/-- Indexes in JSON. -/
def GraphIndex.record : Record GraphIndex where
  name := "GraphIndex"
  start := {}
  fields :=
    [.of "apiToScreens" .defaulted (.dict (.list .text)) fun s apiToScreens =>
       { s with apiToScreens },
     .of "screenToApis" .defaulted (.dict (.list .text)) fun s screenToApis =>
       { s with screenToApis },
     .of "routeGroups" .defaulted (.dict (.list .text)) fun s routeGroups =>
       { s with routeGroups }]

/-- What is known about a graph as JSON. -/
def GraphMeta.toJson (m : GraphMeta) : Json :=
  .object ([("warnings", Json.texts m.warnings), ("timestamp", .text m.timestamp)]
    ++ Json.memberOf "config" (m.settings.map Settings.toJson))

/-- What is known about a graph in JSON. -/
def GraphMeta.record : Record GraphMeta where
  name := "GraphMeta"
  start := {}
  fields :=
    [.of "warnings" .defaulted (.list .text) fun s warnings => { s with warnings },
     .of "timestamp" .defaulted .text fun s timestamp => { s with timestamp },
     .of "config" .defaulted (.optional Settings.record.decode) fun s settings =>
       { s with settings }]

namespace Graph

/-- A graph as JSON. -/
def toJson (g : Graph) : Json :=
  .object [("version", .text g.version), ("nodes", .array (g.nodes.map GraphNode.toJson)),
    ("edges", .array (g.edges.map GraphEdge.toJson)), ("index", g.index.toJson),
    ("meta", g.about.toJson)]

/-- Graphs in JSON. -/
def record : Record Graph where
  name := "DependencyGraph"
  start := {}
  fields :=
    [.of "version" .required .text fun s version => { s with version },
     .of "nodes" .required (.list GraphNode.record.decode) fun s nodes => { s with nodes },
     .of "edges" .required (.list GraphEdge.record.decode) fun s edges => { s with edges },
     .of "index" .required GraphIndex.record.decode fun s index => { s with index },
     .of "meta" .required GraphMeta.record.decode fun s about => { s with about }]

/-- The document of a graph. -/
def document (g : Graph) : String := g.toJson.pretty

/-- Read a document. -/
def ofDocument (text : String) : Except Json.Fault Graph := Json.decodeText record.decode text

end Graph

end ApiAtlas
