set_option autoImplicit false

/-!
# Regular expressions

A pattern is read from its text and then matched with texts.  The language is what filters of
screens are written in: characters, escaped ones, the dot, the two anchors, repetition, alternatives
and groups that capture nothing.  A text outside of it is not read.

Matching marks places of the text.  A pattern takes the marks back: from the places that what comes
behind it accepts to those that it leads from.  All readings are followed at once, so that several
repetitions cost no more than one after the other.
-/

namespace ApiAtlas

/-- A pattern. -/
inductive Regex
  /-- Nothing. -/
  | empty
  | char (c : Char)
  /-- Any character but a line feed. -/
  | any
  /-- The front of the text. -/
  | start
  /-- The end of the text. -/
  | stop
  | seq (first second : Regex)
  | alt (first second : Regex)
  | star (body : Regex)
  deriving DecidableEq, Repr, Inhabited

namespace Regex

/-! ## Reading -/

/-- The character has a meaning somewhere in a pattern and is escaped to stand for itself. -/
def isMeta (c : Char) : Bool := "\\.+*?()|[]\x7b\x7d^$#&-~".toList.contains c

/-- A text written so that it stands for itself. -/
def escape (text : List Char) : List Char :=
  text.flatMap fun c => if isMeta c then ['\\', c] else [c]

/-- What a pattern is written with. -/
inductive Token
  | char (c : Char)
  | any
  | start
  | stop
  | opening
  | closing
  | bar
  | star
  deriving DecidableEq, Repr, Inhabited

/-- The token of one character. Other characters with a meaning belong to a larger language. -/
def Token.ofChar? (c : Char) : Option Token :=
  if c == '.' then some .any
  else if c == '^' then some .start
  else if c == '$' then some .stop
  else if c == ')' then some .closing
  else if c == '|' then some .bar
  else if c == '*' then some .star
  else if "\\(+?[\x7b".toList.contains c then none
  else some (.char c)

/-- The tokens of a pattern. -/
def tokens? : List Char → Option (List Token)
  | [] => some []
  | '\\' :: c :: rest => if isMeta c then (tokens? rest).map (.char c :: ·) else none
  | '(' :: '?' :: ':' :: rest => (tokens? rest).map (.opening :: ·)
  | c :: rest => (Token.ofChar? c).bind fun t => (tokens? rest).map (t :: ·)

/-- A group up to some place: the branches before the last one, and what the last one consists of so
far; the latest of both comes first. -/
structure Group where
  branches : List Regex := []
  items : List Regex := []
  deriving DecidableEq, Repr, Inhabited

/-- The items, of which the latest comes first, one behind the other. -/
def inSequence (items : List Regex) : Regex := items.foldl (fun rest item => .seq item rest) .empty

namespace Group

/-- Put an item behind the others. -/
def push (g : Group) (item : Regex) : Group := { g with items := item :: g.items }

/-- Start another branch. -/
def branch (g : Group) : Group := ⟨inSequence g.items :: g.branches, []⟩

/-- Repeat the latest item. -/
def starred? (g : Group) : Option Group :=
  match g.items with
  | [] => none
  | item :: items => some { g with items := .star item :: items }

/-- The pattern that the group is. -/
def regex (g : Group) : Regex :=
  g.branches.foldl (fun later branch => .alt branch later) (inSequence g.items)

end Group

/-- The pattern of tokens. `group` is the innermost group, and `outer` are those around it, from the
inside out. -/
def ofTokens? (group : Group) (outer : List Group) : List Token → Option Regex
  | [] => if outer.isEmpty then some group.regex else none
  | .char c :: rest => ofTokens? (group.push (.char c)) outer rest
  | .any :: rest => ofTokens? (group.push .any) outer rest
  | .start :: rest => ofTokens? (group.push .start) outer rest
  | .stop :: rest => ofTokens? (group.push .stop) outer rest
  | .bar :: rest => ofTokens? group.branch outer rest
  | .star :: rest => group.starred?.bind fun g => ofTokens? g outer rest
  | .opening :: rest => ofTokens? {} (group :: outer) rest
  | .closing :: rest =>
      match outer with
      | [] => none
      | around :: outer => ofTokens? (around.push group.regex) outer rest

/-- Read a pattern. -/
def parse? (text : List Char) : Option Regex := (tokens? text).bind (ofTokens? {} [])

/-! ## Matching -/

/-- The places, of those before each character of the text and of the one at its end, from which one
character that is accepted leads to a marked place. -/
def beforeOne (accepts : Char → Bool) (text : List Char) (marks : List Bool) : List Bool :=
  List.zipWith (fun c mark => accepts c && mark) text marks.tail ++ [false]

/-- The places that are marked in one of two ways. -/
def either (marks marks' : List Bool) : List Bool := List.zipWith (· || ·) marks marks'

/-- The places of a text from which the pattern leads to a marked place. There is nothing left to
repeat after as many rounds as the text has characters. -/
def before (text : List Char) : Regex → List Bool → List Bool
  | .empty, marks => marks
  | .char c, marks => beforeOne (· == c) text marks
  | .any, marks => beforeOne (· != '\n') text marks
  | .start, marks => marks.take 1 ++ text.map fun _ => false
  | .stop, marks => (text.map fun _ => false) ++ marks.drop text.length
  | .seq first second, marks => before text first (before text second marks)
  | .alt first second, marks => either (before text first marks) (before text second marks)
  | .star body, marks =>
      Nat.repeat (fun found => either marks (before text body found)) text.length marks

/-- The pattern matches a part of the text. -/
def isMatch (r : Regex) (text : List Char) : Bool :=
  (before text r (List.replicate (text.length + 1) true)).contains true

end Regex

/-- An engine of regular expressions, by the patterns it has room for. -/
structure RegexEngine where
  admits : String → Bool

namespace RegexEngine

/-- What an engine says to a pattern that it has no room for. -/
def refusal : String := "Compiled regex exceeds size limit of 10485760 bytes."

/-- An engine with room for every pattern. -/
def roomy : RegexEngine := ⟨fun _ => true⟩

instance : Inhabited RegexEngine := ⟨roomy⟩

end RegexEngine

end ApiAtlas
