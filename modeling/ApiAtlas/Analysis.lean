import ApiAtlas.Graph.Assembly
import ApiAtlas.Script.Parse
import ApiAtlas.Source.Collection
set_option autoImplicit false

/-!
# Analysis

From the files of a workspace to the graph.  An analysis always yields a graph: what cannot be read
is left out with a warning, and settings with which no file can be collected yield a graph without
nodes that says why.
-/

namespace ApiAtlas

/-- The file with its tree, if it is a script that parses. -/
def SourceFile.parsed (f : SourceFile) : SourceFile :=
  match f.kind with
  | .script => { f with tree := (Dialect.ofPath? f.path).bind (Script.parse? · f.content) }
  | _ => f

/-- The graph with warnings put before its own. -/
def Graph.warnedBefore (g : Graph) (warnings : List String) : Graph :=
  { g with about := { g.about with warnings := warnings ++ g.about.warnings } }

/-- Analyse a workspace. -/
def analyze (engine : RegexEngine) (w : Workspace) (settings : Settings) : Graph :=
  match Collection.of w settings with
  | .error failure => .failed settings failure.message
  | .ok found =>
      (Graph.build engine settings .standard (found.files.map SourceFile.parsed)).warnedBefore
        found.warnings

end ApiAtlas
