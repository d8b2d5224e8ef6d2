import ApiAtlas.Script.ClassBody
import ApiAtlas.Script.Pattern
set_option autoImplicit false

/-!
# Scripts: expressions

Only calls, members, templates, names, texts, objects and `this` leave a node of their own.  An
operator, a bracket or a function leaves one node around what its parts leave, and nothing if they
leave nothing; the order of the parts is kept and their nesting is not, so operators need no
precedence.
-/

namespace ApiAtlas.Script

open Syntax

/-! ## Functions -/

/-- The body of an arrow function: statements in braces, or a value. -/
def arrowBody (parse : Goals) (ending : Ending) (annotated : Bool) : Reader Trace := do
  if (← ahead).head? == some '\x7b' then return wrap (← parse .block)
  else parse (.single ending annotated)

/-- What stands before an arrow: a name, or parameters. -/
def arrowHead (d : Dialect) (parse : Goals) (annotated : Bool) : Reader Trace :=
  (do return [.identifier (← valueName)])
  <|> (do
    let types ← if d.hasTypes then optionally (typeParameters parse) else pure none
    let places ← parameters d parse
    let result ←
      if d.hasTypes && annotated then optionally (do mark ":"; resultType parse .mark)
      else pure none
    return types.getD [] ++ places ++ result.getD [])

/-- An arrow function. -/
def arrowFunction (d : Dialect) (parse : Goals) (ending : Ending) (annotated : Bool) :
    Reader Trace := do
  let arrow : Reader Trace := do
    let head ← arrowHead d parse annotated
    mark "=>"
    return head
  let head ← (do word "async"; arrow) <|> arrow
  return wrap (head ++ (← arrowBody parse ending annotated))

/-- A function from its keyword on; it may have no name. -/
def functionExpression (parse : Goals) : Reader Trace := do
  let _ ← tried (do word "async"; ensure ((← wordAhead) == "function"))
  word "function"
  let _ ← tried (mark "*")
  let name ← optionally valueName
  let places ← parse .signature
  return wrap (name.toList.map .identifier ++ places ++ wrap (← parse .block))

/-! ## Objects -/

/-- A property of an object literal. What is neither named by a key nor by itself has the empty key.
-/
def objectProperty (d : Dialect) (parse : Goals) : Reader (List Property) :=
  (do mark "..."; return (wrap (← parse.value)).map (.mk "" ·))
  <|> (do return [.mk "" (← objectMethod d parse)])
  <|> (do
    let (key, _) ← propertyName parse
    mark ":"
    return (← parse.value).map (.mk key ·))
  <|> (do
    let name ← valueName
    match ← optionally (do markUnless "=" "=>"; parse.value) with
    | some value => return (wrap value).map (.mk "" ·)
    | none => return [.mk name (.identifier name)])

/-- An object literal. -/
def objectLiteral (d : Dialect) (parse : Goals) : Reader Trace := do
  mark "\x7b"
  return [.object (← holesUntil "\x7d" (objectProperty d parse))]

/-! ## Operands -/

/-- A value in parentheses. -/
def parenthesized (d : Dialect) (parse : Goals) : Reader Trace := do
  mark "("
  let value ← parse (.sequence .mark)
  let type ← if d.hasTypes then optionally (typeMark parse .mark) else pure none
  mark ")"
  return wrap (value ++ type.getD [])

/-- A template without a tag is a text if nothing is interpolated in it. -/
def untaggedTemplate (parse : Goals) : Reader Trace := do
  let (pieces, values) ← template parse
  return [if values.isEmpty then .text (pieces.headD "") else .other values]

/-- A new object, or the question for what was called. -/
def newObject (d : Dialect) (parse : Goals) : Reader Trace := do
  word "new"
  if ← tried (mark ".") then
    word "target"
    return []
  let maker ← parse (.operand .mark false)
  let types ← if d.hasTypes then optionally (typeArguments parse) else pure none
  let args ← optionally (arguments parse)
  return wrap (maker ++ types.getD [] ++ wrap (args.getD []))

/-- A class that a value is, with its decorators. -/
def classExpression (d : Dialect) (parse : Goals) : Reader Trace := do
  let decorators := (← decorations d parse).filterMap Decoration.decorator?
  ensure ((← wordAhead) == "class")
  return (← parse .classNode).map (decorated decorators)

/-- Words that are values and leave no trace. -/
def silentWords : List String := ["null", "undefined", "true", "false", "super"]

/-- What an operand starts with, if that is a word. -/
def wordOperand (d : Dialect) (parse : Goals) : Reader Trace := do
  let next ← wordAhead
  if next == "function" then functionExpression parse
  else if next == "class" then classExpression d parse
  else if next == "new" then newObject d parse
  else if next == "this" then
    word next
    return [.self]
  else if silentWords.contains next then
    word next
    return []
  else if next == "import" then
    word next
    if !(← tried (do mark "."; word "meta")) then
      ensure ((← ahead).head? == some '(')
    return []
  else
    (do ensure (next == "async"); functionExpression parse)
    <|> (do return [.identifier (← valueName)])

/-- What an operand starts with. -/
def startOperand (d : Dialect) (parse : Goals) : Reader Trace := do
  match (← ahead).head? with
  | some '(' => parenthesized d parse
  | some '[' => do
      mark "["
      return wrap (← holesUntil "]" (listItem parse))
  | some '{' => objectLiteral d parse
  | some '"' => do return [.text (← quotedLiteral)]
  | some '\x27' => do return [.text (← quotedLiteral)]
  | some '`' => untaggedTemplate parse
  | some '/' => do
      patternLiteral
      return []
  | some '<' => do
      ensure d.hasMarkup
      parse .element
  | some '@' => classExpression d parse
  | some '#' => do
      let _ ← privateName
      return []
  | some _ => (do let _ ← numberLiteral; return []) <|> wordOperand d parse
  | none => failure

/-- A call or a template behind what is called. -/
def callRest (parse : Goals) (callee : Trace) : Reader Trace :=
  (do return [.call (nodeOf callee) (← arguments parse)])
  <|> (do
    let (pieces, values) ← template parse
    return [.template (nodeOf callee) pieces values])

/-- What follows a question mark and a point. -/
def chainRest (d : Dialect) (parse : Goals) (base : Trace) : Reader Trace := do
  mark "?."
  ensure !((← get).head?.any Char.isDigit)
  (do return [.member (nodeOf base) (← anyName <|> privateName)])
  <|> (do mark "["; let i ← parse (.sequence .mark); mark "]"; return wrap (base ++ i))
  <|> (do
    if d.hasTypes then
      let _ ← optionally (typeArguments parse)
    callRest parse base)

/-- Types that something is applied to, with the call behind them. Without a call, nothing may
follow that could be compared with. -/
def appliedRest (parse : Goals) (base : Trace) (calls : Bool) : Reader Trace := do
  let types ← typeArguments parse
  (do ensure calls; callRest parse base)
  <|> (do
    ensure ((← ahead).head?.all fun c => ")];:,\x7d.".toList.contains c)
    return wrap (base ++ types))

/-- One thing that follows an operand. -/
def operandStep (d : Dialect) (parse : Goals) (ending : Ending) (calls : Bool) (base : Trace) :
    Reader Trace := do
  continues ending false
  match (← ahead).head? with
  | some '.' => do
      markUnless "." "."
      return [.member (nodeOf base) (← anyName <|> privateName)]
  | some '?' => do
      ensure calls
      chainRest d parse base
  | some '[' => do
      mark "["
      let index ← parse (.sequence .mark)
      mark "]"
      return wrap (base ++ index)
  | some '(' => do
      ensure calls
      callRest parse base
  | some '`' => callRest parse base
  | some '!' => do
      ensure d.hasTypes
      markUnless "!" "="
      return wrap base
  | some '<' => do
      ensure (d.hasTypes && calls)
      appliedRest parse base calls
  | some '+' => do
      ensure calls
      mark "++"
      return wrap base
  | some '-' => do
      ensure calls
      mark "--"
      return wrap base
  | _ => failure

/-- Everything that follows an operand. -/
def operandRest (d : Dialect) (parse : Goals) (ending : Ending) (calls : Bool) :
    (limit : Nat) → Trace → Reader Trace
  | 0, base => pure base
  | limit + 1, base => do
      match ← optionally (operandStep d parse ending calls base) with
      | some more => operandRest d parse ending calls limit more
      | none => pure base

/-- An operand. -/
def operandExpression (d : Dialect) (parse : Goals) (ending : Ending) (calls : Bool) :
    Reader Trace := do
  let start ← if (← wordAhead) == "" then startOperand d parse else wordOperand d parse
  operandRest d parse ending calls (← get).length start

/-! ## Operators -/

/-- The operators between operands, each with the characters that may not follow it. -/
def binaryOperators : List (String × String) :=
  [(">>>", "="), (">>", ">="), (">=", ""), (">", ">="), ("<<", "="), ("<=", ""), ("<", "<="),
   ("===", ""), ("==", "="), ("!==", ""), ("!=", "="), ("&&", "="), ("&", "&="), ("||", "="),
   ("|", "|="), ("??", "="), ("**", "="), ("*", "*="), ("^", "="), ("+", "="), ("-", "="),
   ("/", "="), ("%", "=")]

/-- The operators of an assignment, each with the characters that may not follow it. -/
def assignmentOperators : List (String × String) :=
  [("=", "=>"), ("+=", ""), ("-=", ""), ("**=", ""), ("*=", ""), ("/=", ""), ("%=", ""), ("^=", ""),
   ("&&=", ""), ("&=", ""), ("||=", ""), ("|=", ""), ("??=", ""), ("<<=", ""), (">>>=", ""),
   (">>=", "")]

/-- One of several operators. -/
def oneOf (operators : List (String × String)) : Reader Unit :=
  operators.foldr (fun (text, followers) other => markUnless text followers <|> other) failure

/-- The words that may stand before an operand as operators. -/
def leadingWords : List String := ["typeof", "void", "delete", "await"]

/-- An operator before an operand, with the trace of what belongs to it. -/
def leadingOperator (d : Dialect) (parse : Goals) : Reader (List Trace) :=
  (do mark "++" <|> mark "--" <|> mark "!" <|> mark "~" <|> mark "+" <|> mark "-"; return [[]])
  <|> (do ensure (leadingWords.contains (← anyName)); return [[]])
  <|> (do
    ensure (d == .typeScript)
    mark "<"
    let type ← parse (.type .mark)
    mark ">"
    return [type])

/-- An operand with the operators before it. -/
def unaryExpression (d : Dialect) (parse : Goals) (ending : Ending) : Reader Trace := do
  let leading ← many (leadingOperator d parse)
  let operand ← parse (.operand ending true)
  return if leading.isEmpty then operand else wrap (leading.flatten ++ operand)

/-- An operator behind an operand and what it takes. -/
def operatorStep (d : Dialect) (parse : Goals) (ending : Ending) : Reader (List Trace) := do
  continues ending false
  (do
    oneOf binaryOperators <|> word "in" <|> word "instanceof"
    return [← unaryExpression d parse ending])
  <|> (do
    ensure d.hasTypes
    word "as" <|> word "satisfies"
    return [← (do word "const"; return []) <|> parse (.type ending)])

/-- The two values of a choice. In the first one the type of a result is not taken for one if the
colon of the choice would be missing then. -/
def choiceRest (parse : Goals) (ending : Ending) (annotated : Bool) : Reader Trace := do
  markUnless "?" "?"
  let yes (annotated : Bool) : Reader Trace := do
    let value ← parse (.single .mark annotated)
    mark ":"
    return value
  let first ← yes true <|> yes false
  return first ++ (← parse (.single ending annotated))

/-- Operands with operators, and a choice or an assignment behind them. -/
def operation (d : Dialect) (parse : Goals) (ending : Ending) (annotated : Bool) :
    Reader Trace := do
  let first ← unaryExpression d parse ending
  let steps ← many (operatorStep d parse ending)
  let value := if steps.isEmpty then first else wrap (first ++ steps.flatten)
  let rest ← optionally (do
    continues ending false
    choiceRest parse ending annotated
      <|> (do oneOf assignmentOperators; parse (.single ending annotated)))
  return match rest with
    | some more => wrap (value ++ more)
    | none => value

/-- A value that a generator hands out. -/
def yielded (parse : Goals) (ending : Ending) (annotated : Bool) : Reader Trace := do
  word "yield"
  let _ ← tried (mark "*")
  let value ← optionally (do continues ending false; parse (.single ending annotated))
  return wrap (value.getD [])

/-- An assignment to the parts of a value. -/
def partsAssignment (parse : Goals) (ending : Ending) (annotated : Bool) : Reader Trace := do
  ensure ((← ahead).head?.any fun c => c == '[' || c == '\x7b')
  let places ← parse (.pattern true)
  markUnless "=" "=>"
  return wrap (places ++ (← parse (.single ending annotated)))

/-- One expression. -/
def singleExpression (d : Dialect) (parse : Goals) (ending : Ending) (annotated : Bool) :
    Reader Trace :=
  arrowFunction d parse ending annotated
  <|> yielded parse ending annotated
  <|> partsAssignment parse ending annotated
  <|> operation d parse ending annotated

/-- One expression or several with commas between them. -/
def sequenceExpression (parse : Goals) (ending : Ending) : Reader Trace := do
  let first ← parse (.single ending true)
  let rest ← many (do mark ","; return [← parse (.single ending true)])
  return if rest.isEmpty then first else wrap (first ++ rest.flatten)

end ApiAtlas.Script
