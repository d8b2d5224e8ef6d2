import ApiAtlas.Graph.Codec
set_option autoImplicit false

/-!
# Entities as JSON

The entities of the four layers, written with all their fields; a text that is absent is left out.
An entity whose file is no text cannot be written.
-/

namespace ApiAtlas

open Json (Record Field Decoder)

/-- The words for the conventions of routes. -/
def RoutingStyle.words : List (String × RoutingStyle) :=
  [RoutingStyle.app, .pages].map fun k => (k.name, k)

/-- The words for the kinds of operations. -/
def OperationKind.words : List (String × OperationKind) :=
  [OperationKind.query, .mutation, .subscription].map fun k => (k.name, k)

/-- The words for the kinds of resolvers. -/
def ResolverKind.words : List (String × ResolverKind) :=
  [ResolverKind.query, .mutation, .field].map fun k => (k.name, k)

/-- A screen as JSON. -/
def Screen.toJson? (s : Screen) : Option Json := do
  let file ← s.file.text?
  return .object ([("id", .text s.id), ("route", .text s.route), ("sourceFile", .text file)]
    ++ Json.memberOf "namespace" (s.space.map .text)
    ++ [("routingStyle", .text s.style.name)])

/-- Screens in JSON. -/
def Screen.record : Record Screen where
  name := "Screen"
  start := ⟨"", "", "", none, .app⟩
  fields :=
    [.of "id" .required .text fun s id => { s with id },
     .of "route" .required .text fun s route => { s with route },
     .of "sourceFile" .required .path fun s file => { s with file },
     .of "namespace" .nullable (.optional .text) fun s space => { s with space },
     .of "routingStyle" .required (.variant RoutingStyle.words) fun s style => { s with style }]

/-- An operation as JSON. -/
def ApiOperation.toJson? (op : ApiOperation) : Option Json := do
  let file ← op.file.text?
  return .object ([("id", .text op.id), ("operationKind", .text op.kind.name),
      ("fieldName", .text op.field)]
    ++ Json.memberOf "operationName" (op.name.map .text)
    ++ [("sourceFile", .text file), ("rawText", .text op.source)])

/-- Operations in JSON. -/
def ApiOperation.record : Record ApiOperation where
  name := "GraphQLOperation"
  start := ⟨"", .query, "", none, "", ""⟩
  fields :=
    [.of "id" .required .text fun s id => { s with id },
     .of "operationKind" .required (.variant OperationKind.words) fun s kind => { s with kind },
     .of "fieldName" .required .text fun s field => { s with field },
     .of "operationName" .nullable (.optional .text) fun s name => { s with name },
     .of "sourceFile" .required .path fun s file => { s with file },
     .of "rawText" .required .text fun s source => { s with source }]

/-- A resolver as JSON. -/
def Resolver.toJson? (r : Resolver) : Option Json := do
  let file ← r.file.text?
  return .object [("id", .text r.id), ("ownerName", .text r.owner), ("methodName", .text r.method),
    ("kind", .text r.kind.name), ("exposedName", .text r.exposedName),
    ("sourceFile", .text file), ("outboundCalls", Json.texts r.outboundCalls)]

/-- Resolvers in JSON. -/
def Resolver.record : Record Resolver where
  name := "ResolverBinding"
  start := ⟨"", "", "", .query, "", "", []⟩
  fields :=
    [.of "id" .required .text fun s id => { s with id },
     .of "ownerName" .required .text fun s owner => { s with owner },
     .of "methodName" .required .text fun s method => { s with method },
     .of "kind" .required (.variant ResolverKind.words) fun s kind => { s with kind },
     .of "exposedName" .required .text fun s exposedName => { s with exposedName },
     .of "sourceFile" .required .path fun s file => { s with file },
     .of "outboundCalls" .required (.list .text) fun s outboundCalls => { s with outboundCalls }]

/-- A gRPC method as JSON. -/
def RpcMethod.toJson? (m : RpcMethod) : Option Json := do
  let file ← m.file.text?
  return .object [("id", .text m.id), ("serviceName", .text m.service),
    ("methodName", .text m.name), ("packageName", .text m.package),
    ("inputType", .text m.inputType), ("outputType", .text m.outputType),
    ("sourceFile", .text file)]

/-- Methods in JSON. -/
def RpcMethod.record : Record RpcMethod where
  name := "RpcMethod"
  start := ⟨"", "", "", "", "", "", ""⟩
  fields :=
    [.of "id" .required .text fun s id => { s with id },
     .of "serviceName" .required .text fun s service => { s with service },
     .of "methodName" .required .text fun s name => { s with name },
     .of "packageName" .required .text fun s package => { s with package },
     .of "inputType" .required .text fun s inputType => { s with inputType },
     .of "outputType" .required .text fun s outputType => { s with outputType },
     .of "sourceFile" .required .path fun s file => { s with file }]

end ApiAtlas
