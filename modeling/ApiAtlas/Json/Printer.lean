import ApiAtlas.Json.Value
import ApiAtlas.Text.Quoted
set_option autoImplicit false

/-!
# Json: writing text

Two layouts: compact, on one line without blanks, and pretty, with one item or member a line and two
blanks of indentation a level.  An empty container is written without a line break in both.
-/

namespace ApiAtlas.Json

/-- One character inside a JSON text. -/
def escapedChar (c : Char) : List Char :=
  if c == '"' then ['\\', '"']
  else if c == '\\' then ['\\', '\\']
  else if c == '\n' then ['\\', 'n']
  else if c == '\r' then ['\\', 'r']
  else if c == '\t' then ['\\', 't']
  else if c == '\x08' then ['\\', 'b']
  else if c == '\x0c' then ['\\', 'f']
  else if c.toNat < 32 then
    "\\u00".toList ++ (if c.toNat < 16 then ['0'] else []) ++ Text.hexDigits c.toNat
  else [c]

/-- A text in quotes. -/
def quote (text : String) : String :=
  "\"" ++ String.ofList (text.toList.flatMap escapedChar) ++ "\""

/-- The text of a number. -/
def Number.render : Number → String
  | .integer i => toString i
  | .real x => x.text

mutual

/-- The value on one line. -/
def compact : Json → String
  | .null => "null"
  | .bool b => if b then "true" else "false"
  | .number n => n.render
  | .text t => quote t
  | .array items => "[" ++ String.intercalate "," (compactItems items) ++ "]"
  | .object members => "\x7b" ++ String.intercalate "," (compactMembers members) ++ "\x7d"

/-- The items, each on its own. -/
def compactItems : List Json → List String
  | [] => []
  | v :: rest => v.compact :: compactItems rest

/-- The members, each on its own. -/
def compactMembers : List (String × Json) → List String
  | [] => []
  | (k, v) :: rest => (quote k ++ ":" ++ v.compact) :: compactMembers rest

end

/-- Lines between two brackets, one level deeper than the brackets. -/
def block (opening closing indent : String) (lines : List String) : String :=
  if lines.isEmpty then opening ++ closing
  else
    let deeper := indent ++ "  "
    opening ++ "\n" ++ String.intercalate ",\n" (lines.map (deeper ++ ·))
      ++ "\n" ++ indent ++ closing

mutual

/-- The value over several lines, where the line it starts on is indented by `indent`. -/
def prettyAt (indent : String) : Json → String
  | .array items => block "[" "]" indent (prettyItems (indent ++ "  ") items)
  | .object members => block "\x7b" "\x7d" indent (prettyMembers (indent ++ "  ") members)
  | .null => "null"
  | .bool b => if b then "true" else "false"
  | .number n => n.render
  | .text t => quote t

/-- The items over several lines. -/
def prettyItems (indent : String) : List Json → List String
  | [] => []
  | v :: rest => prettyAt indent v :: prettyItems indent rest

/-- The members over several lines. -/
def prettyMembers (indent : String) : List (String × Json) → List String
  | [] => []
  | (k, v) :: rest => (quote k ++ ": " ++ prettyAt indent v) :: prettyMembers indent rest

end

/-- The value over several lines. -/
def pretty (v : Json) : String := prettyAt "" v

end ApiAtlas.Json
