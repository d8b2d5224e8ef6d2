import ApiAtlas.Failure
import ApiAtlas.Graph.Basic
set_option autoImplicit false

/-!
# Screen filters

A filter is a pattern that the whole label of a screen has to match: a star stands for any run of
characters, a question mark for one, and both for no line feed.  The pattern is written as a regular
expression, which is compiled and then asked.  Only screens are filtered; nodes of other kinds
always pass.
-/

namespace ApiAtlas

namespace Wildcard

/-- What a character of a pattern is written as in a regular expression. -/
def regexPart (c : Char) : List Char :=
  if c == '*' then ['.', '*'] else if c == '?' then ['.'] else Regex.escape [c]

/-- The regular expression of a pattern: it stands between the two ends of the text. -/
def regexText (pattern : String) : List Char :=
  "^(?:".toList ++ pattern.toList.flatMap regexPart ++ ")$".toList

end Wildcard

/-- A filter of screens. -/
structure ScreenFilter where
  pattern : String
  regex : Regex
  compiled : Regex.parse? (Wildcard.regexText pattern) = some regex
  deriving DecidableEq, Repr

namespace ScreenFilter

/-- The filter of a pattern, if the engine has room for it. -/
def compile (engine : RegexEngine) (pattern : String) : Except Failure ScreenFilter :=
  if engine.admits (String.ofList (Wildcard.regexText pattern)) then
    match h : Regex.parse? (Wildcard.regexText pattern) with
    | some regex => .ok ⟨pattern, regex, h⟩
    | none => .error .filter
  else .error .filter

/-- The pattern matches a label. -/
def matchesLabel (filter : ScreenFilter) (label : String) : Bool :=
  filter.regex.isMatch label.toList

/-- The node is no screen or its label matches. -/
def accepts (filter : ScreenFilter) (node : GraphNode) : Bool :=
  node.kind != .screen || filter.matchesLabel node.label

/-- An absent filter accepts everything. -/
def acceptsAll (filter : Option ScreenFilter) (node : GraphNode) : Bool :=
  filter.all (·.accepts node)

end ScreenFilter

end ApiAtlas
