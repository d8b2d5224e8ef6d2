import ApiAtlas.Dict
set_option autoImplicit false

/-!
# Settings

What an analysis is told: where the projects lie and what they are, which files to read, and by
which names the constructs it looks for are known.  Every setting has a default except the kind and
the place of a project.
-/

namespace ApiAtlas

/-- What a project is. -/
inductive ProjectKind
  /-- A front end, whose routes are screens. -/
  | frontEnd
  /-- A back end, whose resolver classes answer operations. -/
  | backEnd
  deriving DecidableEq, Repr, Inhabited

/-- Which routing conventions a front end follows. -/
inductive Routing
  | both
  | app
  | pages
  deriving DecidableEq, Repr, Inhabited

/-- Routes are read off directories. -/
def Routing.followsApp : Routing → Bool
  | .both | .app => true
  | .pages => false

/-- Routes are read off files. -/
def Routing.followsPages : Routing → Bool
  | .both | .pages => true
  | .app => false

/-- A project of the repository. -/
structure Project where
  kind : ProjectKind
  path : String
  space : Option String := none
  routing : Routing := .both
  basePath : Option String := none
  locales : List String := []
  deriving DecidableEq, Repr, Inhabited

/-- Where interface definitions lie. -/
structure InterfaceSettings where
  path : String := "packages/protos"
  deriving DecidableEq, Repr, Inhabited

/-- How GraphQL is recognised in scripts. -/
structure GraphqlSettings where
  /-- Template tags whose texts are documents. -/
  tagNames : List String := ["gql", "graphql"]
  /-- Endings of file names and import sources that are documents. -/
  documentExtensions : List String := [".graphql", ".gql"]
  deriving DecidableEq, Repr, Inhabited

/-- The names of the decorators that mark resolvers. -/
structure Markers where
  resolver : List String := ["Resolver"]
  query : List String := ["Query"]
  mutation : List String := ["Mutation"]
  resolveField : List String := ["ResolveField"]
  deriving DecidableEq, Repr, Inhabited

/-- How resolvers and their calls are recognised. -/
structure ResolverSettings where
  markers : Markers := {}
  /-- A member of `this` whose lower-cased name holds one of these is a client. -/
  callHints : List String := ["client", "service", "grpc"]
  /-- The name of the method that looks a service up. -/
  serviceLookup : String := "getService"
  deriving DecidableEq, Repr, Inhabited

/-- Which files are read, and how they are understood. -/
structure AnalysisSettings where
  includePatterns : List String :=
    ["**/*.ts", "**/*.tsx", "**/*.js", "**/*.jsx", "**/*.graphql", "**/*.gql", "**/*.proto"]
  excludePatterns : List String :=
    ["**/node_modules/**", "**/dist/**", "**/.next/**", "**/coverage/**"]
  /-- Files of at least this many bytes are left out. -/
  maxFileSize : Nat := 10 * 1024 * 1024
  graphql : GraphqlSettings := {}
  resolvers : ResolverSettings := {}
  deriving DecidableEq, Repr, Inhabited

/-- What the written graph holds. -/
structure OutputSettings where
  /-- Leave the settings out of the graph. -/
  anonymize : Bool := false
  deriving DecidableEq, Repr, Inhabited

/-- All settings of an analysis. -/
structure Settings where
  rootDir : String := "."
  apps : Dict Project := .empty
  packages : Dict Project := .empty
  protos : InterfaceSettings := {}
  analysis : AnalysisSettings := {}
  output : OutputSettings := {}
  deriving DecidableEq

instance : Inhabited Settings := ⟨{}⟩

/-- All projects with their names: first the apps, then the packages, each by name. -/
def Settings.projects (s : Settings) : List (String × Project) :=
  s.apps.entries ++ s.packages.entries

end ApiAtlas
