import ApiAtlas.Script.Decoration
set_option autoImplicit false

/-!
# Scripts: patterns and parameters

A pattern says what a value is bound or assigned to.  The names that an object pattern takes over
under their own name leave no trace; every other name does.
-/

namespace ApiAtlas.Script

open Syntax

/-- A place, and the value that it takes if it is given none. -/
def withDefault (parse : Goals) (place : Reader Trace) : Reader Trace := do
  let target ← place
  match ← optionally (do markUnless "=" "=>"; parse.value) with
  | some value => return wrap (target ++ value)
  | none => return target

/-- What is left over, or a place with its default. -/
def patternItem (parse : Goals) (targets : Bool) : Reader Trace :=
  (do mark "..."; return wrap (← parse (.pattern targets)))
  <|> withDefault parse (parse (.pattern targets))

/-- What an object pattern takes: what is left over, a property under another name, or one under its
own name. -/
def patternProperty (parse : Goals) (targets : Bool) : Reader Trace :=
  (do mark "..."; return wrap (← parse (.pattern targets)))
  <|> (do
    let (_, key) ← propertyName parse
    mark ":"
    return wrap (key ++ (← withDefault parse (parse (.pattern targets)))))
  <|> withDefault parse (do let _ ← valueName; return [])

/-- Read the members and items that lead to a place. -/
def placeRest (parse : Goals) : (limit : Nat) → Trace → Reader Trace
  | 0, place => pure place
  | limit + 1, place => do
      match ← optionally (do markUnless "." "."; anyName <|> privateName) with
      | some name => placeRest parse limit [.member (nodeOf place) name]
      | none =>
          match ← optionally (do mark "["; let i ← parse (.sequence .mark); mark "]"; return i) with
          | some index => placeRest parse limit (wrap (place ++ index))
          | none => pure place

/-- A place that can be assigned to: a name, or a member or an item of something. -/
def assignedPlace (parse : Goals) : Reader Trace := do
  let start : Trace ← (do word "this"; return [.self]) <|> (do return [.identifier (← valueName)])
  placeRest parse (← get).length start

/-- A pattern. -/
def bindingPattern (parse : Goals) (targets : Bool) : Reader Trace :=
  (do mark "["; return wrap (← holesUntil "]" (patternItem parse targets)))
  <|> (do mark "\x7b"; return wrap (← listUntil "\x7d" (patternProperty parse targets)))
  <|> (if targets then assignedPlace parse else do return [.identifier (← valueName)])

/-- The words that may stand before a parameter. -/
def parameterWords : List String := ["public", "private", "protected", "override", "readonly"]

/-- A parameter. -/
def parameter (d : Dialect) (parse : Goals) : Reader Trace := do
  if d.hasTypes then
    let decorators ← decorations d parse
    let starts (c : Char) : Bool := isNameStart c || c == '[' || c == '\x7b'
    let _ ← many (wordBefore starts parameterWords)
    let spread ← tried (mark "...")
    let place ← (do word "this"; return [.self]) <|> parse (.pattern false)
    let _ ← tried (mark "?")
    let type ← optionally (typeMark parse .mark)
    let value ← optionally (do markUnless "=" "=>"; parse.value)
    let place := if spread then wrap place else place
    let written := decorators.map fun e => .other [e.expression]
    return wrap (written ++ place ++ type.getD [] ++ value.getD [])
  else patternItem parse false

/-- Parameters in parentheses. -/
def parameters (d : Dialect) (parse : Goals) : Reader Trace := do
  mark "("
  return wrap (← listUntil ")" (parameter d parse))

/-- What a function declares besides its name: type parameters, parameters and the type of its
result. -/
def callSignature (d : Dialect) (parse : Goals) : Reader Trace := do
  if d.hasTypes then
    let types ← optionally (typeParameters parse)
    let places ← parameters d parse
    let result ← optionally (do mark ":"; resultType parse .line)
    return types.getD [] ++ places ++ result.getD []
  else parameters d parse

end ApiAtlas.Script
