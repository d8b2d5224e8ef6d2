import ApiAtlas.Script.ClassBody
import ApiAtlas.Script.Import
import ApiAtlas.Script.Pattern
set_option autoImplicit false

/-!
# Scripts: statements

A statement is told by its first word; what no word tells is an expression.  A class that is
exported takes the decorators that stand before the export.
-/

namespace ApiAtlas.Script

open Syntax

/-! ## Declarations -/

/-- A name that is bound, with its type and its value: its trace, and whether it ends in a type. -/
def declarator (d : Dialect) (parse : Goals) (ending : Ending) : Reader (List (Trace × Bool)) := do
  let place ← parse (.pattern false)
  let type ← if d.hasTypes then do
      let _ ← tried (markUnless "!" "=")
      optionally (typeMark parse ending)
    else pure none
  let value ← optionally (do
    continues ending false
    markUnless "=" "=>"
    parse (.single ending true))
  return [(wrap (place ++ type.getD [] ++ value.getD []), value.isNone)]

/-- Names that are bound; `true` if the last one ends in a type. -/
def declarators (d : Dialect) (parse : Goals) (ending : Ending) : Reader (Trace × Bool) := do
  word "const" <|> word "let" <|> word "var"
  let found ← separated "," (declarator d parse ending)
  return (wrap (found.flatMap (·.1)), d.hasTypes && (found.getLast?.any (·.2)))

/-- A declaration of names. -/
def nameDeclaration (d : Dialect) (parse : Goals) : Reader Trace := do
  let (trace, inType) ← declarators d parse .line
  semicolon inType
  return trace

/-- A function. Where types are written it may have no body, and then it is only declared. One
without a name is an expression. -/
def functionStatement (d : Dialect) (parse : Goals) : Reader Trace := do
  let _ ← tried (word "async")
  word "function"
  let _ ← tried (mark "*")
  let name ← optionally valueName
  let places ← parse .signature
  let trace := name.toList.map Node.identifier ++ places
  if (← ahead).head? == some '\x7b' then
    let body ← parse .block
    if name.isNone then semicolon false
    return wrap (trace ++ wrap body)
  ensure (d.hasTypes && name.isSome)
  semicolon true
  return wrap trace

/-- A class, which may be abstract where types are written. One without a name is an expression. -/
def classStatement (d : Dialect) (parse : Goals) : Reader Trace := do
  if d.hasTypes then
    let _ ← tried (word "abstract")
  let made ← parse .classNode
  if !made.any isNamed then semicolon false
  return made
where
  /-- The class has a name. -/
  isNamed : Node → Bool
    | .classNode name _ _ => name.isSome
    | _ => false

/-- An interface. -/
def interfaceDeclaration (parse : Goals) : Reader Trace := do
  word "interface"
  let _ ← anyName
  let types ← optionally (typeParameters parse)
  let bases ← optionally (do word "extends"; separated "," (namedType parse .mark))
  return wrap (types.getD [] ++ bases.getD [] ++ (← objectType parse))

/-- A name for a type. -/
def typeDeclaration (parse : Goals) : Reader Trace := do
  word "type"
  let _ ← anyName
  let types ← optionally (typeParameters parse)
  mark "="
  let type ← parse (.type .line)
  semicolon true
  return wrap (types.getD [] ++ type)

/-- An enumeration. -/
def enumDeclaration (parse : Goals) : Reader Trace := do
  let _ ← tried (word "const")
  word "enum"
  let name ← valueName
  mark "\x7b"
  let cases ← listUntil "\x7d" (do
    let (_, key) ← propertyName parse
    let value ← optionally (do markUnless "=" "=>"; parse.value)
    return wrap (key ++ value.getD []))
  return wrap (.identifier name :: cases)

/-- A named space of statements. -/
def spaceDeclaration (parse : Goals) : Reader Trace := do
  word "namespace" <|> word "module"
  let name : Trace ← (do return [.text (← quotedLiteral)])
    <|> (do
      let first ← valueName
      let _ ← many (do mark "."; return [← anyName])
      return [.identifier first])
  if (← ahead).head? == some '\x7b' then return wrap (name ++ wrap (← parse .block))
  semicolon false
  return wrap name

/-- A declaration that exists only where types are written. -/
def typedDeclaration (parse : Goals) : Reader Trace := do
  let next ← wordAhead
  if next == "interface" then interfaceDeclaration parse
  else if next == "type" then typeDeclaration parse
  else if next == "enum" || next == "const" then enumDeclaration parse
  else if next == "namespace" || next == "module" then spaceDeclaration parse
  else failure

/-- A declaration, told by its first word. -/
def declaration (d : Dialect) (parse : Goals) : Reader Trace := do
  let next ← wordAhead
  if next == "function" || next == "async" then functionStatement d parse
  else if next == "class" then classStatement d parse
  else if d.hasTypes && next == "abstract" then classStatement d parse
  else
    (do ensure d.hasTypes; typedDeclaration parse)
    <|> (do
      ensure (["const", "let", "var"].contains next)
      nameDeclaration d parse)

/-- A declaration of something that exists elsewhere. -/
def ambientDeclaration (d : Dialect) (parse : Goals) : Reader Trace := do
  word "declare"
  (do
    word "global"
    return wrap (wrap (← parse .block)))
  <|> (do return wrap (← declaration d parse))

/-! ## Exports -/

/-- Names in braces that are given to the outside. -/
def exportClause (d : Dialect) : Reader Trace := do
  mark "\x7b"
  let names ← listUntil "\x7d" (do
    let (name, newName) ← braceSpecifier d
    return [Node.other (.identifier name :: newName.toList.map .identifier)])
  return wrap names

/-- The class of a trace that is one named class; decorators before the export are put on it. -/
def exportedTrace (decorators : List Decorator) (trace : Trace) : Trace :=
  match trace with
  | [.classNode (some name) own members] => [.classNode (some name) (decorators ++ own) members]
  | _ => wrap trace

/-- A default export: a declaration or a value. -/
def defaultExport (d : Dialect) (parse : Goals) (decorators : List Decorator) : Reader Trace := do
  word "default"
  let next ← wordAhead
  if ["function", "class", "abstract", "interface"].contains next
      || (next == "async" && (← wouldRead (do word "async"; word "function"))) then
    return exportedTrace decorators (← declaration d parse)
  let value ← parse (.single .line true)
  semicolon false
  return wrap value

/-- An export behind its keyword. -/
def exportRest (d : Dialect) (parse : Goals) (decorators : List Decorator) : Reader Trace :=
  (do
    if d.hasTypes then
      let _ ← tried (word "type")
    let clause : Trace ← (do
        mark "*"
        let name ← optionally (do word "as"; exportedName)
        return name.toList.map .identifier)
      <|> exportClause d
    let source ← optionally fromSource
    importAttributes parse
    semicolon false
    return wrap (clause ++ source.toList.map .text))
  <|> defaultExport d parse decorators
  <|> (do
    ensure d.hasTypes
    (do
      mark "="
      let value ← parse (.sequence .line)
      semicolon false
      return wrap value)
    <|> (do
      word "as"
      word "namespace"
      let name ← valueName
      semicolon false
      return [.other [.identifier name]])
    <|> (do
      word "import"
      return wrap (← aliasImport))
    <|> (do return wrap (← ambientDeclaration d parse)))
  <|> (do
    let own := (← decorations d parse).filterMap Decoration.decorator?
    let declared ← declaration d parse
    return exportedTrace decorators (declared.map (decorated own)))

/-- An export. -/
def exportStatement (d : Dialect) (parse : Goals) (decorators : List Decorator) : Reader Trace := do
  word "export"
  exportRest d parse decorators

/-- A class or an export with decorators before it. -/
def decoratedStatement (d : Dialect) (parse : Goals) : Reader Trace := do
  let decorators := (← decorations d parse).filterMap Decoration.decorator?
  if (← wordAhead) == "export" then exportStatement d parse decorators
  else return (← classStatement d parse).map (decorated decorators)

/-! ## Control -/

/-- A value in parentheses that a statement depends on. -/
def condition (parse : Goals) : Reader Trace := do
  mark "("
  let value ← parse (.sequence .mark)
  mark ")"
  return wrap value

/-- A choice between statements. -/
def ifStatement (parse : Goals) : Reader Trace := do
  word "if"
  let test ← condition parse
  let yes ← parse .statement
  let no ← optionally (do word "else"; parse .statement)
  return wrap (test ++ yes ++ wrap (no.getD []))

/-- What a loop runs through. -/
def loopOver (parse : Goals) : Reader Trace := do
  let place ← (do
      word "const" <|> word "let" <|> word "var"
      let place ← parse (.pattern false)
      let value ← optionally (do markUnless "=" "=>"; parse.value)
      return place ++ value.getD [])
    <|> parse (.pattern true)
    <|> parse (.operand .mark true)
  word "of" <|> word "in"
  return place ++ (← parse (.sequence .mark))

/-- How a loop counts: a start, a test and a step. -/
def loopSteps (d : Dialect) (parse : Goals) : Reader Trace := do
  let start ← optionally ((do return (← declarators d parse .mark).1) <|> parse (.sequence .mark))
  mark ";"
  let test ← optionally (parse (.sequence .mark))
  mark ";"
  let step ← optionally (parse (.sequence .mark))
  return wrap (start.getD []) ++ wrap (test.getD []) ++ step.getD []

/-- A loop with a head. -/
def forStatement (d : Dialect) (parse : Goals) : Reader Trace := do
  word "for"
  let _ ← tried (word "await")
  mark "("
  let close : Reader Trace → Reader Trace := fun r => do
    let trace ← r
    mark ")"
    return trace
  let head ← close (loopOver parse) <|> close (loopSteps d parse)
  return wrap (head ++ (← parse .statement))

/-- A loop that tests after each round. -/
def doStatement (parse : Goals) : Reader Trace := do
  word "do"
  let body ← parse .statement
  word "while"
  let test ← condition parse
  let _ ← tried (semicolon false)
  return wrap (body ++ test)

/-- One case of a choice by value. -/
def switchCase (parse : Goals) : Reader Trace := do
  let value ← (do word "case"; parse (.sequence .mark)) <|> (do word "default"; return [])
  mark ":"
  return wrap (value ++ (← many (parse .statement)))

/-- A choice by value. -/
def switchStatement (parse : Goals) : Reader Trace := do
  word "switch"
  let value ← condition parse
  mark "\x7b"
  let cases ← many (switchCase parse)
  mark "\x7d"
  return wrap (value ++ wrap cases)

/-- Statements with what to do if they fail, and what to do in the end. -/
def tryStatement (d : Dialect) (parse : Goals) : Reader Trace := do
  word "try"
  let body ← parse .block
  let handler ← optionally (do
    word "catch"
    let place ← optionally (do
      mark "("
      let place ← parse (.pattern false)
      let type ← if d.hasTypes then optionally (typeMark parse .mark) else pure none
      mark ")"
      return place ++ type.getD [])
    return wrap (place.getD [] ++ wrap (← parse .block)))
  let finish ← optionally (do word "finally"; parse .block)
  ensure (handler.isSome || finish.isSome)
  return wrap (wrap body ++ handler.getD [] ++ wrap (finish.getD []))

/-- A return with or without a value. -/
def returnStatement (parse : Goals) : Reader Trace := do
  word "return"
  let value ← optionally (do continues .line false; parse (.sequence .line))
  semicolon false
  return wrap (value.getD [])

/-- A jump, which may name where to. -/
def jumpStatement : Reader Trace := do
  word "break" <|> word "continue"
  let _ ← optionally (do continues .line false; valueName)
  semicolon false
  return []

/-- A failure. -/
def throwStatement (parse : Goals) : Reader Trace := do
  word "throw"
  let value ← parse (.sequence .line)
  semicolon false
  return wrap value

/-! ## Statements -/

/-- An expression as a statement. -/
def expressionStatement (parse : Goals) : Reader Trace := do
  let value ← parse (.sequence .line)
  semicolon false
  return wrap value

/-- A statement that can be jumped to. -/
def labelledStatement (parse : Goals) : Reader Trace := do
  let _ ← valueName
  mark ":"
  return wrap (← parse .statement)

/-- A statement in braces could be an object: it names a property and goes on as no block does. -/
def startsObject (parse : Goals) : Reader Unit := do
  mark "\x7b"
  let _ ← propertyName parse
  mark ":" <|> mark ","

/-- A statement that starts with a word. -/
def wordStatement (d : Dialect) (parse : Goals) (next : String) : Reader Trace :=
  if next == "import" then importStatement d parse <|> expressionStatement parse
  else if next == "export" then exportStatement d parse []
  else if next == "if" then ifStatement parse
  else if next == "for" then forStatement d parse
  else if next == "while" || next == "with" then do
    word next
    let test ← condition parse
    return wrap (test ++ (← parse .statement))
  else if next == "do" then doStatement parse
  else if next == "switch" then switchStatement parse
  else if next == "try" then tryStatement d parse
  else if next == "return" then returnStatement parse
  else if next == "break" || next == "continue" then jumpStatement
  else if next == "throw" then throwStatement parse
  else if next == "debugger" then do
    word next
    semicolon false
    return []
  else if next == "function" || next == "class" then declaration d parse
  else
    (do ensure (next == "async"); ensure (← wouldRead (do word "async"; word "function"))
        functionStatement d parse)
    <|> (do ensure (next != "async" && next != ""); declaration d parse)
    <|> (do ensure d.hasTypes; ambientDeclaration d parse)
    <|> labelledStatement parse
    <|> expressionStatement parse

/-- A statement. -/
def statement (d : Dialect) (parse : Goals) : Reader Trace := do
  match (← ahead).head? with
  | some '{' =>
      (do return wrap (← parse .block))
      <|> (do ensure (← wouldRead (startsObject parse)); expressionStatement parse)
  | some ';' => do
      mark ";"
      return []
  | some '@' => decoratedStatement d parse
  | some _ => wordStatement d parse (← wordAhead)
  | none => failure

/-- Statements in braces. -/
def blockOf (parse : Goals) : Reader Trace := do
  mark "\x7b"
  let statements ← many (parse .statement)
  mark "\x7d"
  return statements

end ApiAtlas.Script
