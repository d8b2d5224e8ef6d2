import ApiAtlas.Script.Goal
set_option autoImplicit false

/-!
# Scripts: types

Types are read only for what they leave in the tree: the texts of literal types, the values that
`typeof` and `import` refer to, the first part of dotted names and the names of parameters.  Names
of types and of properties leave nothing.
-/

namespace ApiAtlas.Script

open Syntax

/-- A type behind a colon. -/
def typeMark (parse : Goals) (ending : Ending) : Reader Trace := do
  markUnless ":" ":"
  parse (.type ending)

/-- Types in angle brackets. -/
def typeArguments (parse : Goals) : Reader Trace := do
  markUnless "<" "<="
  let found ← separated "," (parse (.type .mark))
  let _ ← tried (mark ",")
  mark ">"
  return wrap found

/-- A type parameter with its bound and its default. -/
def typeParameter (parse : Goals) : Reader Trace := do
  let _ ← many (wordBefore isNameStart ["const", "in", "out"])
  let _ ← anyName
  let bound ← optionally (do word "extends"; parse (.type .mark))
  let default ← optionally (do markUnless "=" "=>"; parse (.type .mark))
  return bound.getD [] ++ default.getD []

/-- Type parameters in angle brackets. -/
def typeParameters (parse : Goals) : Reader Trace := do
  mark "<"
  let found ← separated "," (typeParameter parse)
  let _ ← tried (mark ",")
  mark ">"
  return wrap found

/-- The type of a result: a type, or what the result says about a value. -/
def resultType (parse : Goals) (ending : Ending) : Reader Trace :=
  (do
    word "asserts"
    let subject ← valueSubject
    let type ← optionally (do word "is"; parse (.type ending))
    return wrap (subject ++ type.getD []))
  <|> (do
    let subject ← valueSubject
    word "is"
    return wrap (subject ++ (← parse (.type ending))))
  <|> parse (.type ending)
where
  /-- The value that a result speaks about. -/
  valueSubject : Reader Trace :=
    (do word "this"; return [.self]) <|> (do return [.identifier (← valueName)])

/-- The type of a function: parameters, an arrow and the type of the result. -/
def functionType (parse : Goals) (ending : Ending) : Reader Trace := do
  let _ ← tried (do word "abstract"; ensure ((← wordAhead) == "new"))
  let _ ← tried (word "new")
  let parameters ← parse .signature
  mark "=>"
  return wrap (parameters ++ (← resultType parse ending))

/-- What a value that a type refers to is continued by: members and items. -/
def queryRest (parse : Goals) : (limit : Nat) → Node → Reader Node
  | 0, node => pure node
  | limit + 1, node => do
      match ← optionally (do markUnless "." "."; anyName <|> privateName) with
      | some name => queryRest parse limit (.member node name)
      | none =>
          match ← optionally (do mark "["; let t ← parse (.type .mark); mark "]"; return t) with
          | some index => queryRest parse limit (.other (node :: index))
          | none => pure node

/-- A value that a type refers to. -/
def queriedValue (parse : Goals) : Reader Trace := do
  let start ← (do word "import"; return Node.call (.other []) (← arguments parse))
    <|> (do word "this"; return Node.self)
    <|> (do return Node.identifier (← valueName))
  let node ← queryRest parse (← get).length start
  let found ← optionally (typeArguments parse)
  return node :: found.getD []

/-- A member of a tuple, which may have a name. -/
def tupleMember (parse : Goals) : Reader Trace := do
  let _ ← tried (mark "...")
  (do
    let name ← anyName
    let _ ← tried (mark "?")
    mark ":"
    return wrap (.identifier name :: (← parse (.type .mark))))
  <|> (do
    let type ← parse (.type .mark)
    let _ ← tried (mark "?")
    return type)

/-- The types in a template type behind its opening mark. -/
def templateTypes (parse : Goals) : (limit : Nat) → Reader Trace
  | 0 => failure
  | limit + 1 => do
      let (_, interpolated) ← templatePiece
      if interpolated then
        let type ← parse (.type .mark)
        mark "\x7d"
        return type ++ (← templateTypes parse limit)
      else return []

/-- A mark that makes a member optional or the opposite, or takes either back. -/
def optionalMark : Reader Unit := do
  let _ ← tried (mark "+" <|> mark "-")
  mark "?"

/-- A member of an object type in brackets: a mapping over keys, or an index. -/
def bracketMember (parse : Goals) : Reader Trace := do
  let _ ← many (leadingMark *> pure ([] : List Unit))
  mark "["
  let name ← anyName
  let key ← (do
      word "in"
      let keys ← parse (.type .mark)
      let renamed ← optionally (do word "as"; parse (.type .mark))
      return keys ++ renamed.getD [])
    <|> (do
      mark ":"
      return .identifier name :: (← parse (.type .mark)))
  mark "]"
  let _ ← tried optionalMark
  let type ← optionally (typeMark parse .line)
  return wrap (key ++ type.getD [])
where
  /-- What may stand before the bracket. -/
  leadingMark : Reader Unit :=
    mark "+" <|> mark "-" <|> (do let w ← anyName; ensure (["readonly", "static"].contains w))

/-- A signature or a property of an object type. -/
def namedMember (parse : Goals) : Reader Trace := do
  let starts (c : Char) : Bool := isNameChar c || c == '[' || c == '"' || c == '\x27'
  let _ ← many (wordBefore starts ["readonly", "get", "set", "static", "async"])
  let (_, name) ← propertyName parse
  let _ ← tried (mark "?")
  let rest ← parse .signature <|> (do return (← optionally (typeMark parse .line)).getD [])
  return wrap (name ++ rest)

/-- A member of an object type. -/
def typeMember (parse : Goals) : Reader Trace :=
  bracketMember parse
  <|> (do
    word "new"
    ensure ((← ahead).head?.any fun c => c == '(' || c == '<')
    parse .signature)
  <|> (do
    ensure ((← ahead).head?.any fun c => c == '(' || c == '<')
    parse .signature)
  <|> namedMember parse

/-- An object type: members that commas, semicolons or the ends of lines divide. -/
def objectType (parse : Goals) : Reader Trace := do
  mark "\x7b"
  let separator : Reader (List Unit) := (mark "," <|> mark ";") *> pure []
  let _ ← many separator
  let members ← many (do
    let one ← typeMember parse
    mark "," <|> semicolon true
    let _ ← many separator
    return one)
  mark "\x7d"
  return wrap members

/-- Words that are types although they are no names. -/
def typeWords : List String := ["void", "null", "this", "true", "false", "undefined"]

/-- A type that is a name, with what it is applied to. -/
def namedType (parse : Goals) (ending : Ending) : Reader Trace := do
  let first ← anyName
  ensure (typeWords.contains first || !reservedWords.contains first)
  let parts ← many (do markUnless "." "."; return [← anyName])
  let found ← optionally (do continues ending true; typeArguments parse)
  let start : Trace := if parts.isEmpty then [] else [.identifier first]
  return wrap (start ++ found.getD [])

/-- A type without operators. -/
def simpleType (parse : Goals) (ending : Ending) : Reader Trace :=
  (do mark "("; let t ← parse (.type .mark); mark ")"; return wrap t)
  <|> objectType parse
  <|> (do mark "["; return wrap (← listUntil "]" (tupleMember parse)))
  <|> (do return wrap [.text (← quotedLiteral)])
  <|> (do mark "`"; return wrap (← templateTypes parse ((← get).length + 1)))
  <|> (do let _ ← tried (mark "-"); let _ ← numberLiteral; return [])
  <|> (do word "typeof"; return wrap (← queriedValue parse))
  <|> (do ensure ((← wordAhead) == "import"); queriedValue parse)
  <|> namedType parse ending

/-- A type with the brackets of arrays and look-ups behind it. -/
def suffixedType (parse : Goals) (ending : Ending) : Reader Trace := do
  let base ← simpleType parse ending
  let rest ← many (do
    continues ending true
    mark "["
    let index ← optionally (parse (.type .mark))
    mark "]"
    return index.getD [])
  return if rest.isEmpty then base else wrap (base ++ rest)

/-- An operand of a union or an intersection. -/
def typeOperand (parse : Goals) (ending : Ending) : Reader Trace :=
  (do
    ensure (["keyof", "unique", "readonly", "infer"].contains (← wordAhead))
    let _ ← anyName
    parse (.type ending))
  <|> (do
    let next ← ahead
    ensure (next.head?.any (fun c => c == '(' || c == '<')
      || ["new", "abstract"].contains (String.ofList (nameAt next)))
    functionType parse ending)
  <|> suffixedType parse ending

/-- The mark of a union or an intersection. -/
def unionMark : Reader Unit := markUnless "|" "|=" <|> markUnless "&" "&="

/-- A union or an intersection; a mark may stand before its first operand. -/
def unionType (parse : Goals) (ending : Ending) : Reader Trace := do
  let _ ← tried unionMark
  let first ← typeOperand parse ending
  let rest ← many (do continues ending true; unionMark; typeOperand parse ending)
  return if rest.isEmpty then first else wrap (first ++ rest)

/-- A type. -/
def typeExpression (parse : Goals) (ending : Ending) : Reader Trace := do
  let tested ← unionType parse ending
  let choice ← optionally (do
    continues ending true
    word "extends"
    let bound ← unionType parse ending
    mark "?"
    let yes ← parse (.type ending)
    mark ":"
    return bound ++ yes ++ (← parse (.type ending)))
  return match choice with
    | some rest => wrap (tested ++ rest)
    | none => tested

end ApiAtlas.Script
