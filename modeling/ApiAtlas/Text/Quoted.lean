import ApiAtlas.Text.QuotedTable
set_option autoImplicit false

/-!
# Text: quoting for messages

A message shows a text between double quotes with quotes, backslashes, line ends and every character
without a picture escaped.
-/

namespace ApiAtlas.Text

/-- The digits of a number in base sixteen, lower case. -/
def hexDigits (n : Nat) : List Char := Nat.toDigits 16 n

/-- One character as a quoted text shows it. -/
def quotedChar (c : Char) : List Char :=
  if c == '"' then ['\\', '"']
  else if c == '\\' then ['\\', '\\']
  else if c == '\n' then ['\\', 'n']
  else if c == '\r' then ['\\', 'r']
  else if c == '\t' then ['\\', 't']
  else if c == '\x00' then ['\\', '0']
  else if c.toNat < 32 || c.toNat == 127 || inRanges hiddenRanges c then
    "\\u\x7b".toList ++ hexDigits c.toNat ++ ['\x7d']
  else [c]

/-- The text between double quotes. -/
def quoted (text : String) : String :=
  "\"" ++ String.ofList (text.toList.flatMap quotedChar) ++ "\""

end ApiAtlas.Text
