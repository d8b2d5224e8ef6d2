import ApiAtlas.Operation.Basic
set_option autoImplicit false

/-!
# Operations in scripts

A script holds operations as templates with a known tag and refers to others: a hook that is called
with a name refers to an operation of that name, and so does a name imported from a document.  The
references are guesses; nothing is resolved across files.
-/

namespace ApiAtlas.ApiOperation

open Syntax

/-- What a visit contributes: an operation, or the identifiers of operations that are used. -/
inductive Finding
  | operation (op : ApiOperation)
  | reference (id : String)
  deriving DecidableEq, Repr, Inhabited

/-- The name is that of a hook that runs operations. -/
def isHook (name : String) : Bool :=
  "use".toList.isPrefixOf name.toList
    && (Text.occursIn "Query".toList name.toList || Text.occursIn "Mutation".toList name.toList)

/-- The operation that a hook called with a name refers to. -/
def ofHook (file : RawText) (hook reference : String) : ApiOperation :=
  let kind : OperationKind :=
    if Text.occursIn "Mutation".toList hook.toList then .mutation else .query
  ⟨Identifier.operation kind reference, kind, reference, none, file,
    "unresolved reference: " ++ reference⟩

/-- The source of an import is a document. -/
def isDocumentSource (settings : GraphqlSettings) (source : String) : Bool :=
  settings.documentExtensions.any fun ext => Text.endsIn source.toList ext.toList

/-- The operation that a name imported from a document stands for. A name for the whole module
stands for none. -/
def ofSpecifier? : Specifier → Option String
  | .default bound => some (Identifier.operation (Identifier.guessKind bound) bound)
  | .named _ bound => some (Identifier.operation (Identifier.guessKind bound) bound)
  | .all _ => none

/-- What a visit contributes. -/
def findings (settings : GraphqlSettings) (file : RawText) : Visit → List Finding
  | .template tag quasis _ =>
      match tag.identifier? with
      | some name =>
          if settings.tagNames.contains name then
            ((embedded? file (templateText quasis)).map .operation).toList
          else []
      | none => []
  | .call callee args =>
      match callee.identifier?, args.head?.bind Node.identifier? with
      | some hook, some reference =>
          if isHook hook then [.operation (ofHook file hook reference)] else []
      | _, _ => []
  | .importing source specifiers =>
      if isDocumentSource settings source then
        (specifiers.filterMap ofSpecifier?).map .reference
      else []
  | _ => []

/-- Everything that a file contributes, in the order of the source. A file without a tree
contributes nothing. -/
def allFindings (settings : GraphqlSettings) (file : SourceFile) : List Finding :=
  match file.tree with
  | some program => (Program.visits program).flatMap (findings settings file.path)
  | none => []

/-- The operations of a script. -/
def ofScript (settings : GraphqlSettings) (file : SourceFile) : List ApiOperation :=
  (allFindings settings file).filterMap fun f =>
    match f with
    | .operation op => some op
    | .reference _ => none

/-- The identifier of a finding. -/
def Finding.id : Finding → String
  | .operation op => op.id
  | .reference id => id

/-- The identifiers of the operations that a file depends on, each once, in order of first
occurrence. -/
def dependencies (settings : GraphqlSettings) (file : SourceFile) : List String :=
  Text.distinct ((allFindings settings file).map Finding.id)

/-- The operations of all files. -/
def ofFiles (settings : GraphqlSettings) (files : List SourceFile) : Layer ApiOperation :=
  Layer.collect (files.filterMap fun f =>
    match f.kind with
    | .document => some (ofDocument f)
    | .script => some (.ok (ofScript settings f))
    | .interfaceDefinition => none)

end ApiAtlas.ApiOperation
