import ApiAtlas.Text.WordTable
set_option autoImplicit false

/-!
# Text: word characters

A word character is alphabetic, a mark, a decimal digit, a connector such as the underscore, or a
joiner.  Names of services, methods, types and classes found by scanning text are runs of these.
-/

namespace ApiAtlas.Text

/-- ASCII letters, ASCII digits and the underscore. -/
def isAsciiWord (c : Char) : Bool := c.isAlphanum || c == '_'

/-- `c` may stand inside a word. -/
def isWord (c : Char) : Bool :=
  if c.toNat < 128 then isAsciiWord c else inRanges wordRanges c

end ApiAtlas.Text
