import ApiAtlas.Script.Method
set_option autoImplicit false

/-!
# Scripts: classes

The body of a class is read as a row of items, and the members are read off the row.  Where types
are written, a decorator and a comment are items of the row: a method takes the decorators that
stand directly before it, and anything in between, a comment too, parts it from them.  Without types
the decorators are part of the method, and comments do not matter.
-/

namespace ApiAtlas.Script

open Syntax

/-- What the body of a class consists of. -/
inductive ClassItem
  /-- A decorator, as an expression. -/
  | decoration (expression : Node)
  /-- A comment. -/
  | comment
  /-- A method, with the decorators that are part of it. -/
  | method (name : String) (decorators : List Decorator) (body : List Node)
  /-- Anything else, by its trace. -/
  | other (trace : Trace)

/-- The members of a row of items. `pending` holds the decorators that stand directly before it. -/
def ClassItem.membersFrom (pending : List Decorator) : List ClassItem → List Node
  | [] => []
  | .decoration expression :: rest =>
      membersFrom (pending ++ (decoratorOf? expression).toList) rest
  | .comment :: rest => membersFrom [] rest
  | .method name own body :: rest => .method name (pending ++ own) body :: membersFrom [] rest
  | .other trace :: rest => trace ++ membersFrom [] rest

/-- The members of the body of a class. -/
def ClassItem.members (items : List ClassItem) : List Node := membersFrom [] items

/-- The comment items before the next token: one for all comments in the gap. -/
def commentAhead : Reader (List ClassItem) := do
  return if (skipGap (← get)).1 then [.comment] else []

/-- The words that may stand before a member. -/
def classMemberWords (d : Dialect) : List String :=
  ["static", "async", "get", "set"]
    ++ (if d.hasTypes then
      ["public", "private", "protected", "override", "readonly", "declare", "abstract", "accessor"]
      else [])

/-- Statements that are run when the class is made. -/
def staticBlock (parse : Goals) : Reader ClassItem := do
  word "static"
  ensure ((← ahead).head? == some '\x7b')
  return .other (wrap (← parse .block))

/-- The end of a member that has no body. -/
def memberEnd (d : Dialect) (inType : Bool) : Reader Unit :=
  (do ensure d.hasTypes; mark ",") <|> semicolon (d.hasTypes && inType)

/-- A field. -/
def classField (d : Dialect) (parse : Goals) (decorators : List Decoration) : Reader ClassItem := do
  let _ ← many (wordBefore startsMember (classMemberWords d))
  let (_, name) ← propertyName parse
  let type ← if d.hasTypes then do
      let _ ← tried (mark "?" <|> markUnless "!" "=")
      optionally (typeMark parse .line)
    else pure none
  let value ← optionally (do markUnless "=" "=>"; parse (.single .line true))
  memberEnd d value.isNone
  let decorators := decorators.map fun e => Node.other [e.expression]
  return .other (wrap (decorators ++ name ++ type.getD [] ++ value.getD []))

/-- A method. Where types are written it may have no body, and then it is only declared. -/
def classMethod (d : Dialect) (parse : Goals) (decorators : List Decorator) (declared : Bool) :
    Reader ClassItem := do
  let (name, trace) ← methodName d parse (classMemberWords d)
  let places ← parse .signature
  if (← ahead).head? == some '\x7b' then
    return .method name decorators (← parse .block)
  ensure declared
  memberEnd d true
  return .other (wrap (trace ++ places))

/-- A member by which values are found. -/
def classIndex (d : Dialect) (parse : Goals) : Reader ClassItem := do
  ensure d.hasTypes
  let member ← bracketMember parse
  memberEnd d true
  return .other member

/-- One member, with the decorators and comments before it. -/
def classItems (d : Dialect) (parse : Goals) : Reader (List ClassItem) := do
  let leading ← many (do
    let before ← commentAhead
    let decorators ← decoration d parse
    return [(before, decorators)])
  let before ← commentAhead
  let decorators := leading.flatMap (·.2)
  if (← ahead).head? == some ';' && leading.isEmpty then
    mark ";"
    return before
  if leading.isEmpty then
    let item ← staticBlock parse <|> classIndex d parse <|> classMethod d parse [] d.hasTypes
      <|> classField d parse []
    return before ++ [item]
  if d.hasTypes then
    (do
      let method ← classMethod d parse [] false
      let row := leading.flatMap fun (comments, found) =>
        comments ++ (found.filter (!·.commented)).map (.decoration ·.expression)
      return row ++ before ++ [method])
    <|> (do return [← classField d parse decorators])
  else
    (do return [← classMethod d parse (decorators.filterMap Decoration.decorator?) false])
    <|> (do return [← classField d parse decorators])

/-- What a class is built on, and what it promises. Nothing of it is visited. -/
def heritage (d : Dialect) (parse : Goals) : Reader Unit := do
  let _ ← optionally (do
    word "extends"
    let _ ← separated "," (do
      let base ← parse (.operand .mark true)
      if d.hasTypes then
        let _ ← optionally (typeArguments parse)
      return base))
  if d.hasTypes then
    let _ ← optionally (do word "implements"; separated "," (parse (.type .mark)))

/-- A class from its keyword on, without decorators. It may have no name. -/
def classDefinition (d : Dialect) (parse : Goals) : Reader Trace := do
  word "class"
  let name ← optionally (do
    let name ← valueName
    ensure !(d.hasTypes && name == "implements")
    return name)
  if d.hasTypes then
    let _ ← optionally (typeParameters parse)
  heritage d parse
  mark "\x7b"
  let items ← many (classItems d parse)
  mark "\x7d"
  return [.classNode name [] (ClassItem.members items)]

/-- A class with decorators before its own. -/
def decorated (decorators : List Decorator) : Node → Node
  | .classNode name own members => .classNode name (decorators ++ own) members
  | node => node

end ApiAtlas.Script
