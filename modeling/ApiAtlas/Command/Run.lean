import ApiAtlas.Analysis
import ApiAtlas.Command.Arguments
import ApiAtlas.Report.Codec
import ApiAtlas.Report.Selection
import ApiAtlas.Settings.Load
set_option autoImplicit false

/-!
# Running commands

A command reads files of the workspace, prints lines, and may write one file.  A command that cannot
go on prints why, and nothing of what it would have printed.
-/

namespace ApiAtlas

/-- How a command ended. -/
structure Outcome where
  code : Nat
  output : List String := []
  errors : List String := []
  workspace : Workspace
  deriving Inhabited

namespace Command

/-- Load a graph. -/
def loadGraph (w : Workspace) (path : String) : Except Failure Graph :=
  match w.readText path with
  | .error fault => .error (.file path fault)
  | .ok text =>
      match Graph.ofDocument text with
      | .error fault => .error (.json path fault)
      | .ok graph => .ok graph

/-- The text of the path of the folder that a path lies in. -/
def folderOf (path : String) : String :=
  let pieces := (Path.components path).dropLast.map fun c =>
    match c with
    | .root => ""
    | .here => "."
    | .up => ".."
    | .name raw => raw.display
  if pieces == [""] then "/" else String.intercalate "/" pieces

/-- Save a graph, making the folders on the way. -/
def saveGraph (w : Workspace) (path : String) (g : Graph) : Except Failure Workspace := do
  let folder := folderOf path
  let w ← match w.makeFolders w.here (Path.components path).dropLast with
    | .ok w => pure w
    | .error fault => throw (.file folder fault)
  match w.writeText path g.document with
  | .ok w => return w
  | .error fault => throw (.file path fault)

/-- The lines for an analysis. -/
def analysisLines (output : String) (verbose : Bool) (g : Graph) : List String :=
  let warnings := g.about.warnings
  ["Analysis complete! Output written to " ++ output, "", "Summary:"] ++ g.stats.lines
    ++ (if warnings.isEmpty then []
        else ["", "Warnings: " ++ toString warnings.length]
          ++ (if verbose then warnings.map ("  - " ++ ·) else []))

/-- The line that names a filter, if there is one. -/
def filterLine (title : String) (filter : Option String) : List String :=
  (filter.map (title ++ ·)).toList

/-- The lines for a view. -/
def viewLines (filter : Option String) (options : SelectionOptions) (s : Selection) : List String :=
  ["Dependency View", "================"] ++ filterLine "Filter: " filter
    ++ ["Layers: " ++ String.intercalate ", " options.layers]
    ++ (options.hops.map fun hops => "Hops limit: " ++ toString hops).toList
    ++ ["", "Filtered Results:", "  Nodes: " ++ toString s.nodes.length,
        "  Edges: " ++ toString s.edges.length, ""]
    ++ s.byLayer.flatMap fun group =>
        [group.1.toUpper ++ ":"] ++ group.2.map (fun n => "  " ++ n.id ++ " - " ++ n.label) ++ [""]

/-- How many chains are printed. -/
def chainsShown : Nat := 3

/-- The lines for a chain, each deeper than the one before. -/
def chainLines (g : Graph) : Nat → List String → List String
  | _, [] => []
  | depth, id :: rest =>
      let label := ((g.node? id).map (·.label)).getD id
      let arrow := if depth == 0 then "" else "-> "
      ("    " ++ String.join (List.replicate depth "  ") ++ arrow ++ label)
        :: chainLines g (depth + 1) rest

/-- The lines for the chains of impacted screens. -/
def pathLines (g : Graph) (screens : List ImpactedScreen) : List String :=
  if screens.isEmpty then []
  else
    ["", "Dependency Paths:"]
      ++ (screens.take chainsShown).flatMap
        (fun s => ("  " ++ s.label ++ ":") :: chainLines g 0 s.path)
      ++ (if chainsShown < screens.length then
            ["... and " ++ toString (screens.length - chainsShown) ++ " more screens"]
          else [])

/-- The lines for an impact. -/
def impactLines (g : Graph) (filter : Option String) (i : Impact) : List String :=
  ["Impact Analysis", "===============", "API: " ++ i.api]
    ++ filterLine "Additional filter: " filter ++ [""]
    ++ (if i.isEmpty then ["No screens found that depend on this API"]
        else
          ["Impacted Screens (" ++ toString i.screens.length ++ "):"]
            ++ i.screens.flatMap (fun s =>
                ("  " ++ s.label ++ " (" ++ s.id ++ ")") :: (s.file.map ("    File: " ++ ·)).toList)
            ++ (if i.filteredOut == 0 then []
                else ["", "Note: " ++ toString i.filteredOut ++ " additional screens filtered out"])
            ++ pathLines g i.screens)

/-- A title with a count, and a line for each item. -/
def counted {α : Type} (title : String) (display : α → String) (items : List α) : List String :=
  (title ++ " (" ++ toString items.length ++ "):") :: items.map display

/-- The lines for a difference. -/
def differenceLines (old new : String) (filter : Option String) (d : Difference) : List String :=
  let node (mark : String) (n : GraphNode) := "  " ++ mark ++ " " ++ n.id ++ " - " ++ n.label
  let edge (mark : String) (e : GraphEdge) := "  " ++ mark ++ " " ++ e.source ++ " -> " ++ e.target
  ["Dependency Diff", "===============", "Old: " ++ old, "New: " ++ new]
    ++ filterLine "Filter: " filter ++ [""]
    ++ counted "Added Nodes" (node "+") d.addedNodes ++ [""]
    ++ counted "Removed Nodes" (node "-") d.removedNodes ++ [""]
    ++ counted "Added Edges" (edge "+") d.addedEdges ++ [""]
    ++ counted "Removed Edges" (edge "-") d.removedEdges
    ++ ["", "Summary:"] ++ d.summary.lines

/-- A command that failed, with what it printed beside its output before. -/
def failed (w : Workspace) (said : List String) (message : String) : Outcome :=
  ⟨1, [], said ++ ["Error: " ++ message], w⟩

/-- Run an analysis. `timestamp` is the time that the graph bears. -/
def runAnalysis (engine : RegexEngine) (w : Workspace) (timestamp : String)
    (config : Option String) (output : String) (verbose : Bool) : Outcome :=
  match Settings.load w config with
  | .error failure => failed w [] failure.chain
  | .ok settings =>
      let problems := settings.problems
      if !problems.isEmpty then
        failed w ("Configuration errors:" :: problems.map ("  - " ++ ·))
          "configuration validation failed"
      else
        let said := if verbose then ["Using config: " ++ settings.toJson.pretty] else []
        let g := (ApiAtlas.analyze engine w settings).stamped timestamp
        match saveGraph w output g with
        | .error failure => failed w said failure.chain
        | .ok after => ⟨0, analysisLines output verbose g, said, after⟩

/-- Load a graph and print what is asked of it. -/
def withGraph (w : Workspace) (path : String) (lines : Graph → Outcome) : Outcome :=
  match loadGraph w path with
  | .error failure => failed w [] ("failed to load " ++ path ++ ": " ++ failure.chain)
  | .ok g => lines g

/-- Compile a filter, if there is one, and print what is asked of it. -/
def withFilter (engine : RegexEngine) (w : Workspace) (pattern : Option String)
    (lines : Option ScreenFilter → Outcome) : Outcome :=
  match pattern.mapM (ScreenFilter.compile engine) with
  | .error failure => failed w [] ("invalid filter pattern: " ++ failure.chain)
  | .ok filter => lines filter

/-- Run a command. -/
def run (engine : RegexEngine) (w : Workspace) (timestamp : String) : Command → Outcome
  | .analyze config output verbose => runAnalysis engine w timestamp config output verbose
  | .view pattern layers hops input =>
      withGraph w input fun g =>
        withFilter engine w pattern fun filter =>
          let options : SelectionOptions := ⟨filter, parseLayers layers, hops⟩
          ⟨0, viewLines pattern options (Selection.of g options), [], w⟩
  | .impact api pattern input =>
      withGraph w input fun g =>
        withFilter engine w pattern fun filter =>
          ⟨0, impactLines g pattern (Impact.of g api filter), [], w⟩
  | .diff old new pattern =>
      withGraph w old fun before =>
        withGraph w new fun after =>
          withFilter engine w pattern fun filter =>
            ⟨0, differenceLines old new pattern (Difference.between before after filter), [], w⟩

/-- Run a command line. One that is not well formed ends with code 2. -/
def runLine (engine : RegexEngine) (w : Workspace) (timestamp : String) (arguments : List String) :
    Outcome :=
  match parse? arguments with
  | some command => command.run engine w timestamp
  | none => ⟨2, [], [], w⟩

end Command

end ApiAtlas
