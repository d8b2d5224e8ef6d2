import ApiAtlas.FileTree.Basic
import ApiAtlas.Glob.Pattern
import ApiAtlas.Json.Decoder
import ApiAtlas.Regex
set_option autoImplicit false

/-!
# Failures

What can stop a command.  The analysis itself never fails: it reports what it had to leave out as
warnings.
-/

namespace ApiAtlas

/-- The wording of a fault of a JSON text. -/
def Json.Fault.message : Json.Fault → String
  | .syntaxFault => "the text is not JSON"
  | .mismatch cause => cause.message

/-- Why a command cannot go on. -/
inductive Failure
  | file (path : String) (cause : FileFault)
  | json (path : String) (cause : Json.Fault)
  | glob (pattern : String) (cause : Glob.Fault)
  /-- A filter whose pattern the engine refuses. -/
  | filter
  deriving DecidableEq, Repr, Inhabited

/-- The wording of a failure. -/
def Failure.message : Failure → String
  | .file path cause => "I/O error on " ++ path ++ ": " ++ cause.message
  | .json path cause => "JSON error in " ++ path ++ ": " ++ cause.message
  | .glob pattern cause => "Invalid glob pattern: " ++ cause.report pattern
  | .filter => "Invalid filter pattern: " ++ RegexEngine.refusal

/-- The wording of what a failure goes back to. -/
def Failure.cause : Failure → String
  | .file _ cause => cause.message
  | .json _ cause => cause.message
  | .glob pattern cause => cause.report pattern
  | .filter => RegexEngine.refusal

/-- A failure with what it goes back to. -/
def Failure.chain (f : Failure) : String := f.message ++ ": " ++ f.cause

end ApiAtlas
