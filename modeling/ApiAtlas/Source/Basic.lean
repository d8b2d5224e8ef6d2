import ApiAtlas.Path
import ApiAtlas.Settings.Basic
import ApiAtlas.Syntax.Visit
set_option autoImplicit false

/-!
# Source files

A file takes part in the analysis as a script, a GraphQL document or an interface definition.  Which
of them it is follows from its name alone.
-/

namespace ApiAtlas

/-- How a file takes part. -/
inductive SourceKind
  | script
  | document
  | interfaceDefinition
  deriving DecidableEq, Repr, Inhabited

/-- The word for a kind. -/
def SourceKind.name : SourceKind → String
  | .script => "script"
  | .document => "document"
  | .interfaceDefinition => "interface-definition"

/-- The dialect of a script. -/
inductive Dialect
  | javaScript
  | typeScript
  /-- TypeScript, or JavaScript, with markup in it. -/
  | markup
  deriving DecidableEq, Repr, Inhabited

/-- The word for a dialect. -/
def Dialect.name : Dialect → String
  | .javaScript => "JavaScript"
  | .typeScript => "TypeScript"
  | .markup => "TSX"

/-- Types can be written in the dialect. -/
def Dialect.hasTypes (d : Dialect) : Bool := d != .javaScript

/-- Markup can be written in the dialect. -/
def Dialect.hasMarkup (d : Dialect) : Bool := d != .typeScript

/-- The dialect of an extension. -/
def Dialect.ofExtension? (ext : String) : Option Dialect :=
  if ["js", "mjs", "cjs"].contains ext then some .javaScript
  else if ["ts", "mts", "cts"].contains ext then some .typeScript
  else if ["tsx", "jsx"].contains ext then some .markup
  else none

/-- The dialect of a file. -/
def Dialect.ofPath? (path : RawText) : Option Dialect :=
  (Path.extension? path).bind Dialect.ofExtension?

/-- The kind of a file, if it takes part at all. -/
def SourceKind.classify? (documentExtensions : List String) (path : RawText) :
    Option SourceKind := do
  let name ← (Path.fileName? path).bind RawText.text?
  if documentExtensions.any fun ext => Text.endsIn name.toList ext.toList then
    return .document
  if Path.extension? path == some "proto" then
    return .interfaceDefinition
  let _ ← Dialect.ofPath? path
  return .script

/-- The kind of a file by the default endings of documents; a script if it has no other. -/
def SourceKind.ofPath (path : RawText) : SourceKind :=
  (SourceKind.classify? ({} : GraphqlSettings).documentExtensions path).getD .script

/-- A file of the repository. A script has a tree if it could be parsed. -/
structure SourceFile where
  path : RawText
  content : String
  kind : SourceKind
  tree : Option Syntax.Program := none
  deriving Inhabited

/-- The directory stands for the whole repository. -/
def isWholeTree (dir : String) : Bool := dir.isEmpty || Path.components dir == [.here]

/-- The files in a directory. -/
def filesUnder (dir : String) (files : List SourceFile) : List SourceFile :=
  files.filter fun f => isWholeTree dir || Path.isUnder dir f.path

end ApiAtlas
