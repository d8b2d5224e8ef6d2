import ApiAtlas.Failure
import ApiAtlas.Glob.Matching
import ApiAtlas.Settings.Codec
set_option autoImplicit false

/-!
# Settings: loading and checking

Settings come from the file that is named, or from the first of the usual files that is there, or
else are all defaults.  Checking them lists every problem in words.
-/

namespace ApiAtlas.Settings

/-- The files that are looked for when none is named. -/
def usualFiles : List String := ["screen-link.config.json", ".screen-link.json"]

/-- Read settings from a file. -/
def ofFile (w : Workspace) (path : String) : Except Failure Settings :=
  match w.readText path with
  | .error fault => .error (.file path fault)
  | .ok text =>
      match Settings.ofText text with
      | .error fault => .error (.json path fault)
      | .ok settings => .ok settings

/-- Load settings. A named file that is not there is passed over. -/
def load (w : Workspace) (path : Option String) : Except Failure Settings :=
  match (path.toList ++ usualFiles).find? (fun name : String => w.hasPath name) with
  | some found => ofFile w found
  | none => .ok {}

/-- The problem of a pattern, if it has one. -/
def patternProblem? (pattern : String) : Option String :=
  match Glob.ofText {} pattern with
  | .ok _ => none
  | .error fault => some ("invalid glob '" ++ pattern ++ "': " ++ fault.report pattern)

/-- The problems of the paths of projects. -/
def projectProblems (group : String) (projects : Dict Project) : List String :=
  projects.entries.filterMap fun p =>
    if p.2.path.isEmpty then some (group ++ "." ++ p.1 ++ ".path is required") else none

/-- The problem of a list of markers that is empty. -/
def markerProblem? (key : String) (names : List String) : Option String :=
  if names.isEmpty then
    some ("analysis.nestjs.decorators." ++ key ++ " must name at least one decorator")
  else none

/-- Everything that is wrong with settings; nothing means that they can be used. -/
def problems (s : Settings) : List String :=
  let markers := s.analysis.resolvers.markers
  (if s.rootDir.isEmpty then ["rootDir is required"] else [])
    ++ (if s.protos.path.isEmpty then ["protos.path is required"] else [])
    ++ projectProblems "apps" s.apps ++ projectProblems "packages" s.packages
    ++ (markerProblem? "resolver" markers.resolver).toList
    ++ (markerProblem? "query" markers.query).toList
    ++ (markerProblem? "mutation" markers.mutation).toList
    ++ (markerProblem? "resolveField" markers.resolveField).toList
    ++ (if s.analysis.graphql.tagNames.isEmpty then
          ["analysis.graphql.tagNames must name at least one tag"] else [])
    ++ (s.analysis.includePatterns ++ s.analysis.excludePatterns).filterMap patternProblem?

end ApiAtlas.Settings
