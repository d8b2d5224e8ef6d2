import ApiAtlas.Script.Decoration
set_option autoImplicit false

/-!
# Scripts: methods

Methods of objects and of classes are written alike: words that say how the method behaves, its
name, its signature and its body.  Nothing of a method is visited but its decorators and its body.
-/

namespace ApiAtlas.Script

open Syntax

/-- The name of a member can start with this character. -/
def startsMember (c : Char) : Bool :=
  isNameChar c || c == '"' || c == '\x27' || c == '[' || c == '#' || c == '*'

/-- The name of a method with the words before it. -/
def methodName (d : Dialect) (parse : Goals) (words : List String) : Reader (String × Trace) := do
  let _ ← many (wordBefore startsMember words)
  let _ ← tried (mark "*")
  let name ← propertyName parse
  if d.hasTypes then
    let _ ← tried (mark "?")
  return name

/-- The words that may stand before a method of an object. -/
def objectMethodWords : List String := ["async", "get", "set", "static"]

/-- A method of an object. -/
def objectMethod (d : Dialect) (parse : Goals) : Reader Node := do
  let (name, _) ← methodName d parse objectMethodWords
  let _ ← parse .signature
  return .method name [] (← parse .block)

end ApiAtlas.Script
