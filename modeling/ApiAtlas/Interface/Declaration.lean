import ApiAtlas.Text.Blank
import ApiAtlas.Text.Search
import ApiAtlas.Text.Word
set_option autoImplicit false

/-!
# Interface: declarations

The declarations that matter are found by their heads: a package, a service with its opening brace,
a method with its two types.  Each reader takes the text behind a keyword and is deterministic:
blanks, words and marks have no characters in common.
-/

namespace ApiAtlas.Interface

/-- The text behind at least one blank. -/
def behindBlanks? (text : List Char) : Option (List Char) :=
  match text with
  | c :: rest => if Text.isBlank c then some (rest.dropWhile Text.isBlank) else none
  | [] => none

/-- A word of at least one character, and what follows it. -/
def word? (text : List Char) : Option (List Char × List Char) :=
  let word := text.takeWhile Text.isWord
  if word.isEmpty then none else some (word, text.dropWhile Text.isWord)

/-- The text behind a mark, blanks before which do not count. -/
def behindMark? (mark : Char) (text : List Char) : Option (List Char) :=
  match text.dropWhile Text.isBlank with
  | c :: rest => if c == mark then some rest else none
  | [] => none

/-- The text behind a keyword, blanks before which do not count. -/
def behindKeyword? (keyword : String) (text : List Char) : Option (List Char) :=
  Text.dropHead? keyword.toList (text.dropWhile Text.isBlank)

/-! ## Packages -/

/-- A character of a package name. -/
def isPackagePart (c : Char) : Bool := Text.isWord c || c == '.'

/-- The name of a package that is declared at the front of the text. -/
def packageHere? (text : List Char) : Option (List Char) := do
  let rest ← behindKeyword? "package" text
  let rest ← behindBlanks? rest
  let name := rest.takeWhile isPackagePart
  if name.isEmpty then none
  let _ ← behindMark? ';' (rest.dropWhile isPackagePart)
  return name

/-- The first package that is declared at the start of a line. `atLineStart` says that the text is
at one. -/
def packageFrom (atLineStart : Bool) : List Char → List Char
  | [] => []
  | c :: rest =>
      match if atLineStart then packageHere? (c :: rest) else none with
      | some name => name
      | none => packageFrom (c == '\n') rest

/-- The package of a definition; empty if none is declared. -/
def packageOf (text : List Char) : List Char := packageFrom true text

/-! ## Services -/

/-- The name of a service whose head stands at the front of the text, and its text behind the
opening brace. -/
def serviceHere? (text : List Char) : Option (List Char × List Char) := do
  let rest ← Text.dropHead? "service".toList text
  let rest ← behindBlanks? rest
  let (name, rest) ← word? rest
  let body ← behindMark? '{' rest
  return (name, body)

/-- The first service at a word start, where `before` is the character before the text. -/
def nextService? (before : Option Char) : List Char → Option (List Char × List Char)
  | [] => none
  | c :: rest =>
      match if before.any Text.isWord then none else serviceHere? (c :: rest) with
      | some found => some found
      | none => nextService? (some c) rest

/-- The text up to the brace that closes `depth` open ones, and the text behind that brace. -/
def bodyEnd? : Nat → List Char → Option (List Char × List Char)
  | _, [] => none
  | depth, c :: rest =>
      if c == '}' && depth ≤ 1 then some ([], rest)
      else
        let inner := if c == '{' then depth + 1 else if c == '}' then depth - 1 else depth
        (bodyEnd? inner rest).map fun r => (c :: r.1, r.2)

/-! ## Methods -/

/-- What stands between parentheses, which must not be empty, and the text behind them. -/
def inParentheses? (text : List Char) : Option (List Char × List Char) := do
  let rest ← behindMark? '(' text
  let inside := rest.takeWhile (· != ')')
  if inside.isEmpty then none
  match rest.dropWhile (· != ')') with
  | _ :: after => return (inside, after)
  | [] => none

/-- The name and the two types of a method. -/
structure Signature where
  name : List Char
  input : List Char
  output : List Char
  deriving DecidableEq, Repr, Inhabited

/-- A method that is declared at the front of the text, and the text behind it. -/
def methodHere? (text : List Char) : Option (Signature × List Char) := do
  let rest ← Text.dropHead? "rpc".toList text
  let rest ← behindBlanks? rest
  let (name, rest) ← word? rest
  let (input, rest) ← inParentheses? rest
  let rest ← behindKeyword? "returns" rest
  let (output, rest) ← inParentheses? rest
  return (⟨name, input, output⟩, rest)

/-- The methods that are declared at word starts of a text, at most `fuel` steps into it. `before`
is the character before the text. -/
def methodsWithin : Nat → Option Char → List Char → List Signature
  | 0, _, _ => []
  | _ + 1, _, [] => []
  | fuel + 1, before, c :: rest =>
      match if before.any Text.isWord then none else methodHere? (c :: rest) with
      | some (signature, after) => signature :: methodsWithin fuel (some ')') after
      | none => methodsWithin fuel (some c) rest

/-- The methods of the body of a service. -/
def methodsOf (body : List Char) : List Signature := methodsWithin body.length none body

/-! ## Types -/

/-- The letter is `lower` in either case. The long s counts as an s. -/
def isLetter (lower c : Char) : Bool :=
  c == lower || c == lower.toUpper || (lower == 's' && c.toNat == 0x17F)

/-- The text behind the qualifier of a streamed type and its blanks. -/
def behindStream? (text : List Char) : Option (List Char) :=
  let keyword := "stream".toList
  let head := text.take keyword.length
  if head.length == keyword.length && (keyword.zip head).all fun p => isLetter p.1 p.2 then
    behindBlanks? (text.drop keyword.length)
  else none

/-- The name of a type: without blanks at its ends and the qualifier, and with single spaces
inside. -/
def typeName (raw : List Char) : List Char :=
  let trimmed := Text.trim raw
  [' '].intercalate (Text.words ((behindStream? trimmed).getD trimmed))

end ApiAtlas.Interface
