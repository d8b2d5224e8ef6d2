import ApiAtlas.Graph.Index
import ApiAtlas.Matching
import ApiAtlas.Operation.Script
import ApiAtlas.Resolver.Files
set_option autoImplicit false

/-!
# Graph: assembly

The four layers are extracted independently of each other, each under a guard, and so is each
project within a layer; what is missing costs one warning.  Then edges are inferred in three passes:
which operations a screen uses, from a second look at its file; which resolver answers an operation,
by kind and name; which gRPC methods a resolver calls, by the matcher chain.  What remains of the
edges, numbered in this order, and the entities make the graph.  A node holds the path of its file
as a text: an entity whose file has none breaks the assembly off, and no guard stands between it and
the whole graph.
-/

namespace ApiAtlas

/-- What the four extractions yielded. -/
structure Layers where
  screens : LayerResult Screen := .ok {}
  operations : LayerResult ApiOperation := .ok {}
  resolvers : LayerResult Resolver := .ok {}
  rpcMethods : LayerResult RpcMethod := .ok {}

/-- The layer of several parts, one behind the other. -/
def Layer.join {α : Type} (parts : List (Layer α)) : Layer α := parts.foldl Layer.append {}

namespace Layers

/-- The warning for a project whose part of a layer is missing. -/
def projectWarning (what name : String) (fault : LayerFault) : String :=
  "Failed to analyze " ++ what ++ " " ++ name ++ ": " ++ fault.detail

/-- What a project contributes to a layer: what was extracted, or a warning. -/
def ofProject {α : Type} (what name : String) (run : Run (LayerResult α)) : Layer α :=
  match LayerResult.guarded name run with
  | .ok found => found
  | .error fault => ⟨[], [projectWarning what name fault]⟩

/-- The screens of all front ends. -/
def screensOf (settings : Settings) (files : List SourceFile) : Layer Screen :=
  .join ((settings.projects.filter (·.2.kind == .frontEnd)).map fun p =>
    ofProject "app" p.1 (.ok (.ok (Screen.ofProject p.2 files))))

/-- The resolvers of all back ends. -/
def resolversOf (engine : RegexEngine) (settings : Settings) (files : List SourceFile) :
    Layer Resolver :=
  .join ((settings.projects.filter (·.2.kind == .backEnd)).map fun p =>
    ofProject "package" p.1
      (.ok (Resolver.extract engine settings.analysis.resolvers (filesUnder p.2.path files))))

/-- Extract every layer. -/
def extract (engine : RegexEngine) (settings : Settings) (files : List SourceFile) : Layers where
  screens := .guarded "screen" (.ok (.ok (screensOf settings files)))
  operations :=
    .guarded "GraphQL" (.ok (.ok (ApiOperation.ofFiles settings.analysis.graphql files)))
  resolvers := .guarded "resolver" (.ok (.ok (resolversOf engine settings files)))
  rpcMethods :=
    .guarded "gRPC" (.ok (.ok (Interface.ofFiles (filesUnder settings.protos.path files))))

/-- A layer with its fault, if it has one, as a warning. -/
def settled {α : Type} : LayerResult α → Layer α
  | .ok layer => layer
  | .error fault => ⟨[], [fault.message]⟩

/-- The first entity of each identifier. -/
def firstById {α : Type} (id : α → String) (entities : List α) : List α :=
  entities.foldl (fun kept a => if kept.any (id · == id a) then kept else kept ++ [a]) []

/-- The screens that become nodes. -/
def keptScreens (layers : Layers) : List Screen :=
  firstById Screen.id (settled layers.screens).entities

/-- The operations that become nodes. -/
def keptOperations (layers : Layers) : List ApiOperation :=
  firstById ApiOperation.id (settled layers.operations).entities

/-- The resolvers that become nodes. -/
def keptResolvers (layers : Layers) : List Resolver :=
  firstById Resolver.id (settled layers.resolvers).entities

/-- The gRPC methods that become nodes. -/
def keptMethods (layers : Layers) : List RpcMethod :=
  firstById RpcMethod.id (settled layers.rpcMethods).entities

/-- Make the nodes of the layers, one layer behind the other. -/
def makeNodes (layers : Layers) : Run (List GraphNode) := do
  let screens ← layers.keptScreens.mapM GraphNode.ofScreen
  let operations ← layers.keptOperations.mapM GraphNode.ofOperation
  let resolvers ← layers.keptResolvers.mapM GraphNode.ofResolver
  let methods ← layers.keptMethods.mapM GraphNode.ofRpc
  return screens ++ operations ++ resolvers ++ methods

end Layers

/-- An edge without a number. -/
structure Link where
  source : String
  target : String
  kind : EdgeKind
  deriving DecidableEq, Repr, Inhabited

namespace Link

/-- The file of a path; of several the last. -/
def fileAt? (files : List SourceFile) (path : RawText) : Option SourceFile :=
  files.reverse.find? fun f => Path.same f.path path

/-- The warning for a screen whose file could not be searched. -/
def noUsesWarning (screen : Screen) (fault : LayerFault) : String :=
  "Failed to analyze screen dependencies for " ++ screen.id ++ ": " ++ fault.detail

/-- The operations that a screen uses, as its file is searched for them. A search that breaks off
costs the links of the screen and nothing else. -/
def usesIn (discover : SourceFile → Run (List String)) (files : List SourceFile) (screen : Screen) :
    Layer Link :=
  match fileAt? files screen.file with
  | none => {}
  | some file =>
      match LayerResult.guarded screen.id ((discover file).map fun ids => .ok ⟨ids, []⟩) with
      | .ok found => ⟨found.entities.map fun id => ⟨screen.id, id, .uses⟩, []⟩
      | .error fault => ⟨[], [noUsesWarning screen fault]⟩

/-- The operations that screens use. -/
def uses (settings : GraphqlSettings) (screens : List Screen) (files : List SourceFile) :
    Layer Link :=
  .join (screens.map (usesIn (fun file => .ok (ApiOperation.dependencies settings file)) files))

/-- The first resolver that can answer an operation. -/
def resolverFor? (resolvers : List Resolver) (op : ApiOperation) : Option Resolver :=
  resolvers.find? fun r => r.kind.answers op.kind && r.exposedName == op.field

/-- The warning for an operation that nothing answers. -/
def noResolverWarning (op : ApiOperation) : String :=
  "No resolver found for GraphQL field: " ++ op.id

/-- The resolver that answers an operation, or a warning. -/
def resolution (resolvers : List Resolver) (op : ApiOperation) : Layer Link :=
  match resolverFor? resolvers op with
  | some r => ⟨[⟨op.id, r.id, .resolves⟩], []⟩
  | none => ⟨[], [noResolverWarning op]⟩

/-- The warning for a guess. -/
def guessWarning (candidate : String) (method : RpcMethod) : String :=
  "Fuzzy matched " ++ candidate ++ " to " ++ method.id

/-- The warning for a call that matches nothing. -/
def noServiceWarning (candidate : String) : String :=
  "No gRPC service found for dependency: " ++ candidate

/-- The method that a resolver calls, with a warning if it is a guess, or only a warning. -/
def call (chain : MatcherChain) (methods : List RpcMethod) (resolver : Resolver)
    (candidate : String) : Layer Link :=
  match chain.resolve candidate methods with
  | .exact m => ⟨[⟨resolver.id, m.id, .calls⟩], []⟩
  | .guessed m _ => ⟨[⟨resolver.id, m.id, .calls⟩], [guessWarning candidate m]⟩
  | .unmatched => ⟨[], [noServiceWarning candidate]⟩

/-- The methods that a resolver calls. -/
def calls (chain : MatcherChain) (methods : List RpcMethod) (resolver : Resolver) : Layer Link :=
  .join (resolver.outboundCalls.map (call chain methods resolver))

/-- The links as edges, numbered from `first`. -/
def numbered : Nat → List Link → List GraphEdge
  | _, [] => []
  | first, l :: rest =>
      ⟨"e" ++ toString first, l.source, l.target, l.kind⟩ :: numbered (first + 1) rest

end Link

namespace Graph

/-- The settings that a graph shows. -/
def shownSettings (settings : Settings) : Option Settings :=
  if settings.output.anonymize then none else some settings

/-- The graph of nodes, with the edges inferred between the layers they were made from. -/
def linked (settings : Settings) (chain : MatcherChain) (layers : Layers)
    (files : List SourceFile) (nodes : List GraphNode) : Graph :=
  let uses := Link.uses settings.analysis.graphql layers.keptScreens files
  let resolutions := Layer.join
    (layers.keptOperations.map (Link.resolution layers.keptResolvers))
  let calls := Layer.join (layers.keptResolvers.map (Link.calls chain layers.keptMethods))
  let links := uses.entities ++ resolutions.entities ++ calls.entities
  let known := nodes.map (·.id)
  let edges := Link.numbered 1
    (links.filter fun l => known.contains l.source && known.contains l.target)
  { nodes, edges, index := .build nodes edges
    about :=
      { warnings := (Layers.settled layers.screens).warnings
          ++ (Layers.settled layers.operations).warnings
          ++ (Layers.settled layers.resolvers).warnings
          ++ (Layers.settled layers.rpcMethods).warnings
          ++ uses.warnings ++ resolutions.warnings ++ calls.warnings
        settings := shownSettings settings } }

/-- The graph of layers. It breaks off at an entity whose file is no text. -/
def assemble (settings : Settings) (chain : MatcherChain) (layers : Layers)
    (files : List SourceFile) : Run Graph := do
  return linked settings chain layers files (← layers.makeNodes)

/-- The graph that says why there is none. -/
def failed (settings : Settings) (reason : String) : Graph :=
  .empty ["Analysis failed: " ++ reason] (shownSettings settings)

/-- The graph of files. If the assembly breaks off, it has no nodes and one warning. -/
def build (engine : RegexEngine) (settings : Settings) (chain : MatcherChain)
    (files : List SourceFile) : Graph :=
  match assemble settings chain (.extract engine settings files) files with
  | .ok graph => graph
  | .error panic => failed settings panic.message

end Graph

end ApiAtlas
