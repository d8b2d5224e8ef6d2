import ApiAtlas.Document.Parse
import ApiAtlas.Document.Slice
import ApiAtlas.Layer
import ApiAtlas.Source.Basic
set_option autoImplicit false

/-!
# Operations

GraphQL operations of the repository, as documents and templates hold them.  A document is cut into
definitions that are read one by one, so that fragments, repeated names and type definitions do not
hide the operations beside them.
-/

namespace ApiAtlas

/-- A GraphQL operation that the repository holds or refers to. -/
structure ApiOperation where
  id : String
  kind : OperationKind
  field : String
  name : Option String
  file : RawText
  source : String
  deriving DecidableEq, Repr, Inhabited

namespace ApiOperation

/-- The operation of a definition: known by its name, or else by the field it selects first. -/
def ofDefinition? (file : RawText) (source : String) (op : Document.Operation) :
    Option ApiOperation := do
  let field ← op.name <|> op.firstField?
  if field.isEmpty then none
  return ⟨Identifier.operation op.kind field, op.kind, field, op.name, file, source⟩

/-- What makes a fragment, which is no document of its own, into one. -/
def fragmentCompanion : String := "\n\x7b __typename \x7d"

/-- The operations of one definition of a document. Definitions of types have none. -/
def ofSlice (file : RawText) (source : String) (definition : List Char) :
    Except Document.Fault (List ApiOperation) := do
  let keyword := String.ofList (Document.leadingKeyword definition)
  if keyword == "fragment" then
    let _ ← Document.parse (definition ++ fragmentCompanion.toList)
    return []
  else if Document.typeSystemKeywords.contains keyword then
    return []
  else
    let operations ← Document.parse definition
    return operations.filterMap (ofDefinition? file source)

/-- The operations of definitions, up to the first that is not well formed. -/
def ofSlices (file : RawText) (source : String) :
    List (List Char) → Except Document.Fault (List ApiOperation)
  | [] => return []
  | d :: rest => do
      let operations ← ofSlice file source d
      let more ← ofSlices file source rest
      return operations ++ more

/-- The warning for a document that is not well formed. -/
def parseWarning (file : RawText) (fault : Document.Fault) : String :=
  "Failed to parse GraphQL in " ++ file.display ++ ": " ++ fault.message

/-- The operations of a document, or a warning if one of its definitions is not well formed. -/
def ofDocument (file : SourceFile) : Except String (List ApiOperation) :=
  match ofSlices file.path file.content (Document.definitions file.content.toList) with
  | .ok operations => .ok operations
  | .error fault => .error (parseWarning file.path fault)

/-- The text without placeholders: every dollar with a brace behind it is dropped with all up to the
next closing brace, if there is one. -/
def withoutPlaceholders : Nat → List Char → List Char
  | 0, text => text
  | _ + 1, [] => []
  | fuel + 1, '$' :: '{' :: rest =>
      match Text.cutAt? '}' rest with
      | some (_, after) => withoutPlaceholders fuel after
      | none => '$' :: withoutPlaceholders fuel ('{' :: rest)
  | fuel + 1, c :: rest => c :: withoutPlaceholders fuel rest

/-- The static text of a template. -/
def staticText (text : List Char) : List Char := withoutPlaceholders text.length text

/-- The first operation of a template's text, if its static text is a document. -/
def embedded? (file : RawText) (text : String) : Option ApiOperation :=
  match Document.parse (staticText text.toList) with
  | .ok (op :: _) => ofDefinition? file text op
  | _ => none

end ApiOperation

end ApiAtlas
