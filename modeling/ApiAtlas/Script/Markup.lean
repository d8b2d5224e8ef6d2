import ApiAtlas.Script.TypeExpression
set_option autoImplicit false

/-!
# Scripts: markup

An element is written by its name, its attributes and its children.  Its name is visited where the
element is opened and where it is closed; names of attributes and the text between elements leave no
trace.  Text is everything up to the next bracket, brace or reference, comments included.
-/

namespace ApiAtlas.Script

open Syntax

/-- The character can be in the name of an element or attribute. -/
def isMarkupNameChar (c : Char) : Bool := isNameChar c || c == '-'

/-- A simple name of an element or attribute. -/
def markupWord : Reader String := do
  gap
  let text ← get
  ensure (text.head?.any isNameStart)
  set (text.dropWhile isMarkupNameChar)
  return String.ofList (text.takeWhile isMarkupNameChar)

/-- Read further parts of a dotted name of an element. -/
def elementNameRest : (limit : Nat) → Node → Reader Node
  | 0, node => pure node
  | limit + 1, node => do
      match ← optionally (do mark "."; anyName) with
      | some part => elementNameRest limit (.member node part)
      | none => pure node

/-- The name of an element: simple, dotted, or with the name of its space. -/
def elementName : Reader Trace := do
  let first ← markupWord
  match ← optionally (do mark ":"; markupWord) with
  | some part => return [.other [.identifier first, .identifier part]]
  | none => return [← elementNameRest (← get).length (.identifier first)]

/-- What follows a reference to a character whose ampersand was read; none if it is not well
formed. -/
def afterReference? (text : List Char) : Option (List Char) :=
  match text with
  | '#' :: x :: rest =>
      if x == 'x' || x == 'X' then numbered isHexDigit rest else numbered Char.isDigit (x :: rest)
  | _ => numbered Char.isAlpha text
where
  /-- Some characters of a class and a semicolon. -/
  numbered (inClass : Char → Bool) (text : List Char) : Option (List Char) :=
    match text.takeWhile inClass, text.dropWhile inClass with
    | _ :: _, ';' :: rest => some rest
    | _, _ => none

/-- The text of an attribute up to its closing quote, and what follows the quote. An ampersand
before a letter or a number sign starts a reference. -/
def attributeText? (quote : Char) : Nat → List Char → Option (List Char × List Char)
  | 0, _ => none
  | _ + 1, [] => none
  | fuel + 1, c :: rest =>
      if c == quote then some ([], rest)
      else if c == '&' && rest.head?.any (fun x => x.isAlpha || x == '#') then do
        let after ← afterReference? rest
        let (text, behind) ← attributeText? quote fuel after
        return (c :: Text.upTo rest after ++ text, behind)
      else do
        let (text, behind) ← attributeText? quote fuel rest
        return (c :: text, behind)

/-- The text of an attribute, as it is written between its quotes. -/
def attributeText : Reader String := do
  gap
  match ← get with
  | q :: rest =>
      ensure (q == '"' || q == '\x27')
      match attributeText? q (rest.length + 1) rest with
      | some (text, behind) =>
          set behind
          return String.ofList text
      | none => failure
  | [] => failure

/-- A value in braces, which may be missing. -/
def embeddedValue (parse : Goals) : Reader Trace := do
  mark "\x7b"
  let value ← (do mark "..."; return wrap (← parse.value))
    <|> parse (.sequence .mark)
    <|> pure []
  mark "\x7d"
  return wrap value

/-- An attribute, or the attributes of an object. -/
def elementAttribute (parse : Goals) : Reader Trace :=
  embeddedValue parse
  <|> (do
    let first ← markupWord
    let name : Trace ← (do
        mark ":"
        return [.other [.identifier first, .identifier (← markupWord)]])
      <|> pure []
    let value ← optionally (do
      mark "="
      (do return [.text (← attributeText)]) <|> embeddedValue parse <|> parse .element)
    return wrap (name ++ value.getD []))

/-- What stands between elements up to the closing of the element around it. -/
def elementChildren (parse : Goals) : (limit : Nat) → Reader Trace
  | 0 => failure
  | limit + 1 => do
      let text ← get
      match text.dropWhile fun c => !"<>\x7b\x7d&".toList.contains c with
      | '<' :: '/' :: rest =>
          set rest
          return []
      | '<' :: rest =>
          set ('<' :: rest)
          let child ← parse .element
          return child ++ (← elementChildren parse limit)
      | '{' :: rest =>
          set ('{' :: rest)
          let child ← embeddedValue parse
          return child ++ (← elementChildren parse limit)
      | '&' :: rest =>
          match afterReference? rest with
          | some after =>
              set after
              elementChildren parse limit
          | none => failure
      | _ => failure

/-- An element. One without a name only groups its children. -/
def element (d : Dialect) (parse : Goals) : Reader Trace := do
  mark "<"
  if ← tried (mark ">") then
    let children ← elementChildren parse ((← get).length + 1)
    mark ">"
    return wrap children
  let name ← elementName
  let types ← if d.hasTypes then optionally (typeArguments parse) else pure none
  let attributes ← many (elementAttribute parse)
  let opening := wrap (name ++ types.getD [] ++ attributes)
  if ← tried (mark "/>") then return opening
  mark ">"
  let children ← elementChildren parse ((← get).length + 1)
  let closing ← elementName
  mark ">"
  return wrap (opening ++ children ++ wrap closing)

end ApiAtlas.Script
