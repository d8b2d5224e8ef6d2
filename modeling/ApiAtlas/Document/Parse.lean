import ApiAtlas.Document.Grammar
set_option autoImplicit false

/-!
# Document: accepted documents

A text that the grammar accepts is still refused when a number in it is too large, when selection
sets nest too deep, when names repeat, when an unnamed operation is not alone, or when there is no
operation at all.  Numbers and nesting are checked in the order of the text before anything else.
-/

namespace ApiAtlas.Document

/-- Why a text is no executable document. -/
inductive Fault
  | grammar
  | numberTooLarge
  | nestingTooDeep
  | operationTwice (name : String)
  | fragmentTwice (name : String)
  | severalOperations
  | noOperation
  deriving DecidableEq, Repr, Inhabited

/-- The wording of a fault. What is wrong with the text itself is not spelled out. -/
def Fault.message : Fault → String
  | .grammar => "<syntax error>"
  | .numberTooLarge => "<syntax error>"
  | .nestingTooDeep => "recursion limit exceeded."
  | .operationTwice name => "operation " ++ name ++ " is defined twice"
  | .fragmentTwice name => "fragment " ++ name ++ " is defined twice"
  | .severalOperations => "document contains multiple operations"
  | .noOperation => "document does not contain an operation"

/-! ## Numbers and nesting -/

mutual

/-- Every number of the value has a value. -/
def Value.inRange : Value → Bool
  | .number n => n.isSome
  | .list items => itemsInRange items
  | .object fields => fieldsInRange fields
  | _ => true

/-- Every number of the values has a value. -/
def itemsInRange : List Value → Bool
  | [] => true
  | v :: rest => v.inRange && itemsInRange rest

/-- Every number of the fields has a value. -/
def fieldsInRange : List (String × Value) → Bool
  | [] => true
  | (_, v) :: rest => v.inRange && fieldsInRange rest

end

/-- Check the numbers of arguments. -/
def checkArguments (args : List Argument) : Except Fault Unit :=
  if args.all (·.value.inRange) then .ok () else .error .numberTooLarge

/-- Check the numbers of directives. -/
def checkDirectives (directives : List Directive) : Except Fault Unit :=
  if directives.all (·.arguments.all (·.value.inRange)) then .ok () else .error .numberTooLarge

mutual

/-- Check a selection; `depth` more levels of selection sets may stand below it. -/
def checkSelection : Nat → Selection → Except Fault Unit
  | depth, .field _ _ args directives inner => do
      checkArguments args
      checkDirectives directives
      match inner with
      | none => return ()
      | some selections =>
          match depth with
          | 0 => throw .nestingTooDeep
          | depth + 1 => checkSelections depth selections
  | _, .spread _ directives => checkDirectives directives
  | depth, .inline _ directives selections => do
      checkDirectives directives
      match depth with
      | 0 => throw .nestingTooDeep
      | depth + 1 => checkSelections depth selections

/-- Check selections one after the other. -/
def checkSelections : Nat → List Selection → Except Fault Unit
  | _, [] => return ()
  | depth, s :: rest => do
      checkSelection depth s
      checkSelections depth rest

end

/-- Check the variables of an operation. -/
def checkVariables : List VariableDefinition → Except Fault Unit
  | [] => return ()
  | v :: rest => do
      checkDirectives v.directives
      if !(v.fallback.all Value.inRange) then throw .numberTooLarge
      checkVariables rest

/-- How many levels of selection sets may stand below the outermost one. -/
def nestingLimit : Nat := 64

/-- Check the numbers and the nesting of a definition. -/
def Definition.check : Definition → Except Fault Unit
  | .operation op => do
      checkVariables op.parameters
      checkDirectives op.directives
      checkSelections nestingLimit op.selections
  | .fragment f => do
      checkDirectives f.directives
      checkSelections nestingLimit f.selections

/-! ## Names -/

/-- What is known of the definitions before one: the operations, and the names of the fragments. -/
structure Names where
  operations : List (Option String)
  fragments : List String
  deriving Inhabited

/-- Take a definition in, unless it clashes with an earlier one. -/
def Names.add (seen : Names) : Definition → Except Fault Names
  | .operation op =>
      match op.name with
      | some name =>
          if seen.operations.contains none then .error .severalOperations
          else if seen.operations.contains (some name) then .error (.operationTwice name)
          else .ok { seen with operations := some name :: seen.operations }
      | none =>
          if seen.operations.isEmpty then .ok { seen with operations := [none] }
          else .error .severalOperations
  | .fragment f =>
      if seen.fragments.contains f.name then .error (.fragmentTwice f.name)
      else .ok { seen with fragments := f.name :: seen.fragments }

/-! ## Documents -/

/-- Line and column, both from one. A carriage return starts the columns again and is no line
end of its own. -/
structure Position where
  line : Nat
  column : Nat
  deriving DecidableEq, Repr, Inhabited

/-- The position after a character. -/
def Position.after (p : Position) (c : Char) : Position :=
  if c == '\n' then ⟨p.line + 1, 1⟩
  else if c == '\r' then ⟨p.line, 1⟩
  else ⟨p.line, p.column + 1⟩

/-- The position of the suffix `rest` of a text. -/
def Position.of (text rest : List Char) : Position :=
  (Text.upTo text rest).foldl Position.after ⟨1, 1⟩

/-- `p` does not come after `q`. -/
def Position.le (p q : Position) : Bool :=
  p.line < q.line || (p.line == q.line && p.column ≤ q.column)

/-- The operations of an executable document, by position. -/
def parse (text : List Char) : Except Fault (List Operation) := do
  let definitions ←
    match Rule.document text with
    | some ds => pure ds
    | none => throw .grammar
  definitions.forM fun d => d.1.check
  let names ← definitions.foldlM (fun (seen : Names) d => seen.add d.1) ⟨[], []⟩
  if names.operations.isEmpty then throw .noOperation
  let placed := definitions.filterMap fun d =>
    match d.1 with
    | .operation op => some (Position.of text d.2, op)
    | .fragment _ => none
  return (placed.mergeSort fun a b => a.1.le b.1).map (·.2)

end ApiAtlas.Document
