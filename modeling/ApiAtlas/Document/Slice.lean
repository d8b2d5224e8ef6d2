import ApiAtlas.Text.Blank
import ApiAtlas.Text.Search
set_option autoImplicit false

/-!
# Document: cutting a text into definitions

A text is first cut into lexemes, which tile it.  A definition is then a slice of lexemes: it ends
at the `}` that closes the last open bracket, or before a keyword of definitions that stands outside
all brackets.  Strings and comments are passed over and count as no content of their own; what
follows the last slice without content is left out.
-/

namespace ApiAtlas.Document

/-- What a lexeme is to the cutting. -/
inductive LexemeKind
  /-- A comment, up to the line feed. -/
  | comment
  /-- A string, plain or block, closed or not. -/
  | quoted
  /-- An opening bracket. -/
  | opening
  /-- A closing bracket. -/
  | closing
  /-- A run of letters, digits and underscores that does not start with a digit. -/
  | word
  /-- An ASCII blank or a comma. -/
  | gap
  /-- Any other character. -/
  | other
  deriving DecidableEq, Repr, Inhabited

/-- A piece of the text. -/
structure Lexeme where
  kind : LexemeKind
  text : List Char
  deriving DecidableEq, Repr, Inhabited

/-! ## Lexemes -/

/-- The rest of a plain string behind its opening quote, cut off behind the closing quote or before
a line feed. -/
def plainString : List Char → List Char × List Char
  | [] => ([], [])
  | '"' :: rest => (['"'], rest)
  | '\n' :: rest => ([], '\n' :: rest)
  | '\\' :: c :: rest =>
      let (inside, after) := plainString rest
      ('\\' :: c :: inside, after)
  | c :: rest =>
      let (inside, after) := plainString rest
      (c :: inside, after)

/-- The rest of a block string behind its opening quotes, cut off behind the closing ones. -/
def blockString : List Char → List Char × List Char
  | [] => ([], [])
  | '\\' :: '"' :: '"' :: '"' :: rest =>
      let (inside, after) := blockString rest
      ('\\' :: '"' :: '"' :: '"' :: inside, after)
  | '"' :: '"' :: '"' :: rest => (['"', '"', '"'], rest)
  | c :: rest =>
      let (inside, after) := blockString rest
      (c :: inside, after)

/-- A letter that a word may start with. -/
def isWordStart (c : Char) : Bool := c.isAlpha || c == '_'

/-- A character that a word may hold. -/
def isWordPart (c : Char) : Bool := c.isAlphanum || c == '_'

/-- The lexeme at the front of a text that starts with `c`, and what is left. -/
def firstLexeme (c : Char) (rest : List Char) : Lexeme × List Char :=
  if c == '#' then
    (⟨.comment, c :: rest.takeWhile (· != '\n')⟩, rest.dropWhile (· != '\n'))
  else if c == '"' then
    match rest with
    | '"' :: '"' :: more =>
        let (inside, after) := blockString more
        (⟨.quoted, '"' :: '"' :: '"' :: inside⟩, after)
    | _ =>
        let (inside, after) := plainString rest
        (⟨.quoted, '"' :: inside⟩, after)
  else if c == '{' || c == '(' || c == '[' then (⟨.opening, [c]⟩, rest)
  else if c == '}' || c == ')' || c == ']' then (⟨.closing, [c]⟩, rest)
  else if isWordStart c then
    (⟨.word, c :: rest.takeWhile isWordPart⟩, rest.dropWhile isWordPart)
  else if Text.isAsciiBlank c || c == ',' then (⟨.gap, [c]⟩, rest)
  else (⟨.other, [c]⟩, rest)

/-- The first `fuel` lexemes of a text. -/
def lexemesWithin : Nat → List Char → List Lexeme
  | 0, _ => []
  | _ + 1, [] => []
  | fuel + 1, c :: rest =>
      let (lexeme, after) := firstLexeme c rest
      lexeme :: lexemesWithin fuel after

/-- The lexemes of a text. Each has at least one character, so the length bounds their number. -/
def lexemes (text : List Char) : List Lexeme := lexemesWithin text.length text

/-! ## Slices -/

/-- The words that start a definition of types. -/
def typeSystemKeywords : List String :=
  ["schema", "scalar", "type", "interface", "union", "enum", "input", "directive", "extend"]

/-- The words that start a definition. -/
def definitionKeywords : List String :=
  ["query", "mutation", "subscription", "fragment"] ++ typeSystemKeywords

/-- Where the cutting stands. -/
structure Cut where
  /-- The lexemes of the slice so far, last first. -/
  held : List Lexeme
  /-- How many brackets are open. -/
  depth : Nat
  /-- The slice holds more than blanks, strings and comments. -/
  content : Bool
  /-- The last word of the slice. -/
  lastWord : Option (List Char)
  /-- The last character was a dollar or an at sign. -/
  sigil : Bool
  deriving Inhabited

/-- The state before the first lexeme of a slice. -/
def Cut.start : Cut := ⟨[], 0, false, none, false⟩

/-- A slice of the text. -/
abbrev Slice := List Lexeme

/-- The text of a slice. -/
def Slice.text (slice : Slice) : List Char := slice.flatMap Lexeme.text

/-- The word starts a new definition. -/
def Cut.startsDefinition (s : Cut) (word : List Char) : Bool :=
  s.depth == 0 && s.content && !s.sigil && s.lastWord != some "extend".toList
    && definitionKeywords.any fun k => k.toList == word

/-- Take one lexeme in; the result holds the slice that ended with it or before it, if one did. -/
def Cut.step (s : Cut) (lexeme : Lexeme) : Option Slice × Cut :=
  let grown := lexeme :: s.held
  match lexeme.kind with
  | .comment | .quoted => (none, { s with held := grown, sigil := false })
  | .gap => (none, { s with held := grown, sigil := false })
  | .other =>
      (none, { s with
        held := grown, content := true, sigil := lexeme.text == ['$'] || lexeme.text == ['@'] })
  | .opening =>
      (none, { s with held := grown, depth := s.depth + 1, content := true, sigil := false })
  | .closing =>
      if s.depth ≤ 1 && lexeme.text == ['}'] then (some grown.reverse, Cut.start)
      else (none, { s with held := grown, depth := s.depth - 1, content := true, sigil := false })
  | .word =>
      if s.startsDefinition lexeme.text then
        (some s.held.reverse,
          { s with
            held := [lexeme], content := true, lastWord := some lexeme.text, sigil := false })
      else
        (none, { s with
          held := grown, content := true, lastWord := some lexeme.text, sigil := false })

/-- The slices that end among the lexemes, and the state at the end. -/
def cutFrom : Cut → List Lexeme → List Slice × Cut
  | s, [] => ([], s)
  | s, lexeme :: rest =>
      let (ended, next) := s.step lexeme
      let (slices, last) := cutFrom next rest
      (ended.toList ++ slices, last)

/-- The slices of a text, and the lexemes after the last slice. -/
def slices (text : List Char) : List Slice × List Lexeme :=
  let (ended, last) := cutFrom Cut.start (lexemes text)
  if last.content then (ended ++ [last.held.reverse], []) else (ended, last.held.reverse)

/-- The definitions of a text: its slices without the blanks at their ends, unless nothing is
left. -/
def definitions (text : List Char) : List (List Char) :=
  ((slices text).1.map fun s => Text.trim s.text).filter fun d => !d.isEmpty

/-- The first word of a definition, or its brace if that comes first. Strings, comments, blanks and
commas before it are passed over; anything else hides it. -/
def leadingKeyword (definition : List Char) : List Char :=
  match (lexemes definition).find? fun l =>
      l.kind != .comment && l.kind != .quoted && l.kind != .gap with
  | some l => if l.kind == .word || l.text == ['{'] then l.text else []
  | none => []

end ApiAtlas.Document
