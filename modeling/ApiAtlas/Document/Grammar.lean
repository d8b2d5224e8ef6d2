import ApiAtlas.Document.Tree
import ApiAtlas.Json.Draft
import ApiAtlas.Text.Search
set_option autoImplicit false

/-!
# Document: the grammar

A rule reads a prefix of the text and returns what it read and what is left.  Choices are ordered
and final: a rule that has accepted a prefix is not asked for another one.  There is no token level,
so a keyword needs no word end behind it (`queryFoo` is the keyword `query` and the name `Foo`).

Between the parts of a rule blanks and comments may stand; names, numbers, texts and types are read
without gaps.
-/

namespace ApiAtlas.Document

/-- A rule of the grammar. -/
abbrev Rule (α : Type) := List Char → Option (α × List Char)

/-- Carriage return and line feed. -/
def isLineEnd (c : Char) : Bool := c == '\n' || c == '\r'

/-- The blanks of documents: spaces, tabs, line ends, commas and byte order marks. -/
def isGap (c : Char) : Bool :=
  c == ' ' || c == '\t' || c == ',' || c == '\uFEFF' || isLineEnd c

/-- Drop blanks and comments. `comment` says that the text starts inside a comment. -/
def skipFrom : Bool → List Char → List Char
  | _, [] => []
  | true, c :: rest => if isLineEnd c then skipFrom false rest else skipFrom true rest
  | false, c :: rest =>
      if isGap c then skipFrom false rest
      else if c == '#' then skipFrom true rest
      else c :: rest

/-- Drop the blanks and comments at the front. -/
def skip (text : List Char) : List Char := skipFrom false text

/-- A letter of a name's start. -/
def isNameStart (c : Char) : Bool := c.isAlpha || c == '_'

/-- A letter of a name. -/
def isNamePart (c : Char) : Bool := c.isAlphanum || c == '_'

namespace Rule

/-- The given characters. -/
def literal (expected : String) : Rule Unit := fun text =>
  (Text.dropHead? expected.toList text).map fun rest => ((), rest)

/-- A name. -/
def name : Rule String
  | [] => none
  | c :: rest =>
      if isNameStart c then
        some (String.ofList (c :: rest.takeWhile isNamePart), rest.dropWhile isNamePart)
      else none

/-- A rule that may be absent. -/
def optional {α : Type} (rule : Rule α) : Rule (Option α) := fun text =>
  match rule text with
  | some (a, rest) => some (some a, rest)
  | none => some (none, text)

/-- The rule repeated as often as it accepts, with gaps between; `fuel` bounds the repetitions. -/
def many {α : Type} (rule : Rule α) : Nat → Rule (List α)
  | 0, text => some ([], text)
  | fuel + 1, text =>
      match rule text with
      | none => some ([], text)
      | some (a, rest) =>
          match many rule fuel (skip rest) with
          | some (as, after) => some (a :: as, if as.isEmpty then rest else after)
          | none => none

/-- The rule repeated, at least once. -/
def atLeastOne {α : Type} (rule : Rule α) (fuel : Nat) : Rule (List α) := fun text =>
  match many rule fuel text with
  | some ([], _) => none
  | result => result

/-- A type with the mark behind it that forbids null, if there is one. -/
def marked (inner : String) : List Char → String × List Char
  | '!' :: rest => (inner ++ "!", rest)
  | rest => (inner, rest)

/-- A type, which has no gaps inside. -/
def type : Nat → Rule String
  | 0, _ => none
  | fuel + 1, text =>
      let inner : Option (String × List Char) :=
        match text with
        | '[' :: more => do
            let (item, after) ← type fuel more
            let ((), after) ← literal "]" after
            return ("[" ++ item ++ "]", after)
        | _ => name text
      inner.map fun r => marked r.1 r.2

/-- The condition of a fragment: the keyword, at least one blank, and a type name. -/
def typeCondition : Rule String := fun text => do
  let ((), rest) ← literal "on" text
  let after := rest.dropWhile isGap
  if after.length == rest.length then none
  name after

/-! ## Values -/

/-- The digits of a whole number. A zero at the front stands alone. -/
def wholeDigits : Rule (List Char)
  | '0' :: rest => some (['0'], rest)
  | text =>
      let digits := text.takeWhile Char.isDigit
      if digits.isEmpty then none else some (digits, text.dropWhile Char.isDigit)

/-- A number, which no letter may follow. A point or an exponent mark without digits is left. -/
def number : Rule (Option Json.Number) := fun text => do
  let (negative, unsigned) :=
    match text with
    | '-' :: rest => (true, rest)
    | _ => (false, text)
  let (whole, afterWhole) ← wholeDigits unsigned
  let (fraction, afterFraction) := (Json.Draft.readFraction afterWhole).getD ([], afterWhole)
  let (exponent, rest) := (Json.Draft.readExponent afterFraction).getD (none, afterFraction)
  if rest.head?.any isNameStart then none
  return (Json.Draft.numberOf negative whole fraction exponent, rest)

/-- The end of a block text: its content and what follows the closing quotes. -/
def blockContent : List Char → List Char → Option (List Char × List Char)
  | _, [] => none
  | done, '\\' :: '"' :: '"' :: '"' :: rest => blockContent ('"' :: '"' :: '"' :: done) rest
  | done, '"' :: '"' :: '"' :: rest => some (done.reverse, rest)
  | done, c :: rest => blockContent (c :: done) rest

/-- The end of a text on one line: its content and what follows the closing quote. -/
def lineContent : List Char → List Char → Option (List Char × List Char)
  | _, [] => none
  | done, '"' :: rest => some (done.reverse, rest)
  | done, '\\' :: 'u' :: a :: b :: c :: d :: rest =>
      match Json.Draft.hexValue4? a b c d with
      | none => none
      | some n =>
          if 0xD800 ≤ n && n ≤ 0xDFFF then none else lineContent (Char.ofNat n :: done) rest
  | done, '\\' :: e :: rest =>
      match Json.Draft.escape? e with
      | none => none
      | some c => lineContent (c :: done) rest
  | done, c :: rest => if isLineEnd c then none else lineContent (c :: done) rest

/-- A text, plain or block. -/
def text : Rule String := fun input =>
  let block :=
    match input with
    | '"' :: '"' :: '"' :: rest => blockContent [] rest
    | _ => none
  let result :=
    match block with
    | some r => some r
    | none =>
        match input with
        | '"' :: rest => lineContent [] rest
        | _ => none
  result.map fun r => (String.ofList r.1, r.2)

/-- True or false. -/
def bool : Rule Bool := fun input =>
  match literal "true" input with
  | some (_, rest) => some (true, rest)
  | none => (literal "false" input).map fun r => (false, r.2)

/-- A reference to a variable. -/
def reference : Rule String := fun input => do
  let ((), rest) ← literal "$" input
  name (skip rest)

mutual

/-- A value. A constant one holds no variable. -/
def value (constant : Bool) : Nat → Rule Value
  | 0, _ => none
  | fuel + 1, input =>
      let named : Option (Value × List Char) :=
        if constant then none else (reference input).map fun r => (.reference r.1, r.2)
      match named with
      | some r => some r
      | none =>
      match number input with
      | some (n, rest) => some (.number n, rest)
      | none =>
      match text input with
      | some (t, rest) => some (.text t, rest)
      | none =>
      match bool input with
      | some (b, rest) => some (.bool b, rest)
      | none =>
      match literal "null" input with
      | some (_, rest) => some (.null, rest)
      | none =>
      match name input with
      | some (n, rest) => some (.enumerator n, rest)
      | none =>
      match input with
      | '[' :: rest =>
          match items constant fuel (skip rest) with
          | some (vs, after) => (literal "]" (skip after)).map fun r => (.list vs, r.2)
          | none => none
      | '{' :: rest =>
          match fields constant fuel (skip rest) with
          | some (fs, after) => (literal "\x7d" (skip after)).map fun r => (.object fs, r.2)
          | none => none
      | _ => none

/-- The items of a list. -/
def items (constant : Bool) : Nat → Rule (List Value)
  | 0, _ => none
  | fuel + 1, input =>
      match value constant fuel input with
      | none => some ([], input)
      | some (v, rest) =>
          match items constant fuel (skip rest) with
          | some (vs, after) => some (v :: vs, after)
          | none => none

/-- The fields of an object. -/
def fields (constant : Bool) : Nat → Rule (List (String × Value))
  | 0, _ => none
  | fuel + 1, input =>
      match name input with
      | none => some ([], input)
      | some (key, rest) =>
          match literal ":" (skip rest) with
          | none => some ([], input)
          | some (_, afterColon) =>
              match value constant fuel (skip afterColon) with
              | none => some ([], input)
              | some (v, afterValue) =>
                  match fields constant fuel (skip afterValue) with
                  | some (fs, after) => some ((key, v) :: fs, after)
                  | none => none

end

/-! ## Arguments and directives -/

/-- One argument. -/
def argument (fuel : Nat) : Rule Argument := fun input => do
  let (key, rest) ← name input
  let ((), rest) ← literal ":" (skip rest)
  let (v, rest) ← value false fuel (skip rest)
  return (⟨key, v⟩, rest)

/-- Arguments in parentheses, at least one. -/
def arguments (fuel : Nat) : Rule (List Argument) := fun input => do
  let ((), rest) ← literal "(" input
  let (args, rest) ← atLeastOne (argument fuel) fuel (skip rest)
  let ((), rest) ← literal ")" (skip rest)
  return (args, rest)

/-- Arguments, or none of them. -/
def argumentsIfAny (fuel : Nat) : Rule (List Argument) := fun input =>
  match arguments fuel (skip input) with
  | some r => some r
  | none => some ([], input)

/-- One directive. -/
def directive (fuel : Nat) : Rule Directive := fun input => do
  let ((), rest) ← literal "@" input
  let (key, rest) ← name (skip rest)
  let (args, rest) ← argumentsIfAny fuel rest
  return (⟨key, args⟩, rest)

/-- Directives, or none of them. -/
def directives (fuel : Nat) : Rule (List Directive) := fun input =>
  match atLeastOne (directive fuel) fuel (skip input) with
  | some r => some r
  | none => some ([], input)

/-! ## Selections -/

/-- The name of a field with the label before it, if there is one. -/
def labelled : Rule (Option String × String) := fun input => do
  let (first, rest) ← name input
  let second := do
    let ((), afterColon) ← literal ":" (skip rest)
    let r ← name (skip afterColon)
    return ((some first, r.1), r.2)
  match second, literal ":" (skip rest) with
  | some r, _ => return r
  | none, some _ => none
  | none, none => return ((none, first), rest)

mutual

/-- A selection set in braces. -/
def selectionSet : Nat → Rule (List Selection)
  | 0, _ => none
  | fuel + 1, input =>
      match input with
      | '{' :: rest =>
          match selections fuel (skip rest) with
          | some (s :: more, after) =>
              (literal "\x7d" (skip after)).map fun r => (s :: more, r.2)
          | _ => none
      | _ => none

/-- The selections of a set, as many as there are. -/
def selections : Nat → Rule (List Selection)
  | 0, _ => none
  | fuel + 1, input =>
      match selection fuel input with
      | none => some ([], input)
      | some (s, rest) =>
          match selections fuel (skip rest) with
          | some (more, after) => some (s :: more, after)
          | none => none

/-- One selection: a field, else a fragment in place, else a fragment by name. -/
def selection : Nat → Rule Selection
  | 0, _ => none
  | fuel + 1, input =>
      let field : Option (Selection × List Char) := do
        let ((label, key), rest) ← labelled input
        let (args, rest) ← argumentsIfAny fuel rest
        let (ds, rest) ← directives fuel rest
        match selectionSet fuel (skip rest) with
        | some (inner, after) => return (.field label key args ds (some inner), after)
        | none => return (.field label key args ds none, rest)
      match field with
      | some r => some r
      | none =>
          match literal "..." input with
          | none => none
          | some (_, rest) =>
              let rest := skip rest
              let inline : Option (Selection × List Char) := do
                let (on, afterOn) ← optional typeCondition rest
                let (ds, afterDirectives) ← directives fuel afterOn
                let (inner, after) ← selectionSet fuel (skip afterDirectives)
                return (.inline on ds inner, after)
              match inline with
              | some r => some r
              | none =>
                  if (typeCondition rest).isSome then none
                  else do
                    let (key, rest) ← name rest
                    let (ds, rest) ← directives fuel rest
                    return (.spread key ds, rest)

end

/-! ## Definitions -/

/-- One variable of an operation. Its directives come before its default. -/
def variableDefinition (fuel : Nat) : Rule VariableDefinition := fun input => do
  let (key, rest) ← reference input
  let ((), rest) ← literal ":" (skip rest)
  let (type, rest) ← type fuel (skip rest)
  let (ds, rest) ← directives fuel rest
  let fallback := do
    let ((), rest) ← literal "=" (skip rest)
    value true fuel (skip rest)
  match fallback with
  | some (v, after) => return (⟨key, type, ds, some v⟩, after)
  | none => return (⟨key, type, ds, none⟩, rest)

/-- The variables of an operation in parentheses, between which there may be none. -/
def variableDefinitions (fuel : Nat) : Rule (List VariableDefinition) := fun input => do
  let ((), rest) ← literal "(" input
  let (vs, rest) ← many (variableDefinition fuel) fuel (skip rest)
  let ((), rest) ← literal ")" (skip rest)
  return (vs, rest)

/-- The keyword of an operation. -/
def operationKind : Rule OperationKind := fun input =>
  [OperationKind.query, .mutation, .subscription].findSome? fun kind =>
    (literal kind.name input).map fun r => (kind, r.2)

/-- An operation that starts with a keyword. -/
def keywordOperation (fuel : Nat) : Rule Operation := fun input => do
  let (kind, rest) ← operationKind input
  let (key, afterName) :=
    match name (skip rest) with
    | some (n, after) => (some n, after)
    | none => (none, rest)
  let (vs, rest) := (variableDefinitions fuel (skip afterName)).getD ([], afterName)
  let (ds, rest) ← directives fuel rest
  let (selected, rest) ← selectionSet fuel (skip rest)
  return (⟨kind, key, vs, ds, selected⟩, rest)

/-- An operation. -/
def operation (fuel : Nat) : Rule Operation := fun input =>
  match keywordOperation fuel input with
  | some r => some r
  | none => (selectionSet fuel input).map fun r => (⟨.query, none, [], [], r.1⟩, r.2)

/-- A fragment. -/
def fragment (fuel : Nat) : Rule Fragment := fun input => do
  let ((), rest) ← literal "fragment" input
  let (key, rest) ← name (skip rest)
  let (on, rest) ← typeCondition (skip rest)
  let (ds, rest) ← directives fuel rest
  let (selected, rest) ← selectionSet fuel (skip rest)
  return (⟨key, on, ds, selected⟩, rest)

/-- A definition, together with the text it starts at. -/
def definition (fuel : Nat) : Rule (Definition × List Char) := fun input =>
  match operation fuel input with
  | some (op, rest) => some ((.operation op, input), rest)
  | none => (fragment fuel input).map fun r => ((.fragment r.1, input), r.2)

/-- A whole document: at least one definition and nothing else. -/
def document (input : List Char) : Option (List (Definition × List Char)) := do
  let fuel := 4 * input.length + 8
  let (ds, rest) ← atLeastOne (definition fuel) fuel (skip input)
  if (skip rest).isEmpty then return ds else none

end Rule

end ApiAtlas.Document
