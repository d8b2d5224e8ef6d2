import ApiAtlas.Text.Range
import ApiAtlas.Text.Search
set_option autoImplicit false

/-!
# Scripts: characters, gaps and words

A reader takes a front part off a text or fails, and then nothing is taken.  Between any two tokens
there may be a gap of blanks and comments.  Where a statement may end without a semicolon is decided
by the gap and by the character behind it.
-/

namespace ApiAtlas.Script

/-- A reader of values of type `α`. -/
abbrev Reader (α : Type) := StateT (List Char) Option α

/-! ## Gaps -/

/-- The blanks of scripts. -/
def spaceRanges : List (Nat × Nat) :=
  [(9, 13), (32, 32), (160, 160), (5760, 5760), (8192, 8203), (8232, 8233), (8239, 8239),
   (8287, 8288), (12288, 12288), (65279, 65279)]

/-- The character is a blank. -/
def isSpace (c : Char) : Bool := Text.inRanges spaceRanges c

/-- The character ends a line. -/
def isLineEnd (c : Char) : Bool := c == '\n' || c == '\u2028' || c == '\u2029'

/-- What a position in a gap belongs to. -/
inductive Gap
  | blank
  | line
  | block
  deriving DecidableEq, Repr, Inhabited

/-- Skip a gap: whether it holds a comment, and the text behind it. Fails in a comment that never
closes, and then the gap ends before it. -/
def skipFrom : Gap → Bool → List Char → Option (Bool × List Char)
  | .blank, seen, [] => some (seen, [])
  | .blank, _, '/' :: '/' :: rest => skipFrom .line true rest
  | .blank, seen, '/' :: '*' :: rest =>
      skipFrom .block true rest <|> some (seen, '/' :: '*' :: rest)
  | .blank, seen, c :: rest =>
      if isSpace c then skipFrom .blank seen rest else some (seen, c :: rest)
  | .line, seen, [] => some (seen, [])
  | .line, seen, c :: rest =>
      if isLineEnd c || c == '\r' then skipFrom .blank seen rest else skipFrom .line seen rest
  | .block, _, [] => none
  | .block, seen, '*' :: '/' :: rest => skipFrom .blank seen rest
  | .block, seen, _ :: rest => skipFrom .block seen rest

/-- Whether the gap at the front of a text holds a comment, and the text behind the gap. -/
def skipGap (text : List Char) : Bool × List Char := (skipFrom .blank false text).getD (false, text)

/-- The text behind the gap at its front. -/
def afterGap (text : List Char) : List Char := (skipGap text).2

/-- The word that an operator of letters would continue with stands at the front. -/
def startsWithOperatorWord (text : List Char) : Bool :=
  match text with
  | 'i' :: 'n' :: rest =>
      let behind := fun (t : List Char) => !(t.head?.any Char.isAlpha)
      behind rest || ("stanceof".toList.isPrefixOf? rest).any behind
  | _ => false

/-- On a new line, a statement may end before this text. `inType` says that it would end in a
type. -/
def endsBefore (inType : Bool) : List Char → Bool
  | [] => true
  | c :: rest =>
      if "`,:;*%><=?^|&/".toList.contains c then false
      else if c == '(' || c == '[' then inType
      else if c == '.' then rest.head?.any Char.isDigit
      else if c == '+' || c == '-' then rest.head? == some c
      else if c == '!' then rest.head? != some '='
      else !startsWithOperatorWord (c :: rest)

/-- A statement may end here without a semicolon: before a closing brace, at the end of the text, or
at the end of a line. -/
def mayEndFrom (inType : Bool) : Gap → List Char → Bool
  | .block, [] => false
  | _, [] => true
  | .blank, '}' :: _ => true
  | .blank, '/' :: '/' :: rest => mayEndFrom inType .line rest
  | .blank, '/' :: '*' :: rest => mayEndFrom inType .block rest
  | .blank, c :: rest =>
      if isLineEnd c then endsBefore inType (afterGap rest)
      else isSpace c && mayEndFrom inType .blank rest
  | .line, c :: rest =>
      if isLineEnd c then endsBefore inType (afterGap rest) else mayEndFrom inType .line rest
  | .block, '*' :: '/' :: rest => mayEndFrom inType .blank rest
  | .block, _ :: rest => mayEndFrom inType .block rest

/-- A statement may end here without a semicolon. -/
def mayEnd (inType : Bool) (text : List Char) : Bool := mayEndFrom inType .blank text

/-- How a construct ends: where its line ends, or only at a mark or bracket behind it. -/
inductive Ending
  | line
  | mark
  deriving DecidableEq, Repr, Inhabited

/-! ## Readers -/

/-- Fail unless the test holds. -/
def ensure (test : Bool) : Reader Unit := if test then pure () else failure

/-- Skip the gap. -/
def gap : Reader Unit := modify afterGap

/-- The text behind the gap, which stays where it is. -/
def ahead : Reader (List Char) := do return afterGap (← get)

/-- Fail if a construct with this ending ends here. -/
def continues (ending : Ending) (inType : Bool) : Reader Unit := do
  ensure !(ending == .line && mayEnd inType (← get))

/-- The exact characters, without a gap. -/
def exactly (chars : List Char) : Reader Unit := do
  match chars.isPrefixOf? (← get) with
  | some rest => set rest
  | none => failure

/-- A gap and a mark. -/
def mark (text : String) : Reader Unit := do gap; exactly text.toList

/-- A gap and a mark that none of the characters follows. -/
def markUnless (text followers : String) : Reader Unit := do
  mark text
  ensure !((← get).head?.any followers.toList.contains)

/-- One reader, or nothing. -/
def optionally {α : Type} (r : Reader α) : Reader (Option α) := (some <$> r) <|> pure none

/-- The reader succeeds; nothing is taken if not. -/
def tried {α : Type} (r : Reader α) : Reader Bool := (r *> pure true) <|> pure false

/-- The reader would succeed; nothing is taken. -/
def wouldRead {α : Type} (r : Reader α) : Reader Bool := do return (r.run (← get)).isSome

/-- Read again and again, at most `limit` times, as long as something is taken. -/
def repeated {α : Type} (r : Reader (List α)) : (limit : Nat) → Reader (List α)
  | 0 => pure []
  | limit + 1 => do
      let before ← get
      match r.run before with
      | none => pure []
      | some (found, rest) =>
          if rest.length < before.length then
            set rest
            return found ++ (← repeated r limit)
          else pure []

/-- Read as often as possible. -/
def many {α : Type} (r : Reader (List α)) : Reader (List α) := do repeated r (← get).length

/-- Items with commas between them, up to a closing mark; a comma may stand at the end. -/
def listUntil {α : Type} (close : String) (item : Reader (List α)) : Reader (List α) := do
  let found ← many (do
    let one ← item
    if !(← tried (mark ",")) then ensure (← wouldRead (mark close))
    return one)
  mark close
  return found

/-- Items or nothing between commas, up to a closing mark. -/
def holesUntil {α : Type} (close : String) (item : Reader (List α)) : Reader (List α) := do
  let found ← many (do
    if ← wouldRead (mark close) then failure
    let one ← item <|> pure []
    if !(← tried (mark ",")) then ensure (← wouldRead (mark close))
    return one)
  mark close
  return found

/-- At least one item, with a mark between any two. -/
def separated {α : Type} (between : String) (item : Reader (List α)) : Reader (List α) := do
  let first ← item
  return first ++ (← many (do mark between; item))

/-- A semicolon, or the end of a statement without one. -/
def semicolon (inType : Bool) : Reader Unit :=
  mark ";" <|> do ensure (mayEnd inType (← get))

/-! ## Words -/

/-- Characters that cannot be part of a name, apart from blanks, digits and controls. -/
def nonNameChars : List Char := ":;`\"'@#.,|^&<=>+-*/\\%?!~()[]\x7b\x7d".toList

/-- The character can start a name. -/
def isNameStart (c : Char) : Bool :=
  c.toNat > 0x1f && !c.isDigit && !nonNameChars.contains c && !isSpace c

/-- The character can be in a name. -/
def isNameChar (c : Char) : Bool := c.isDigit || isNameStart c

/-- The name at the front of a text, without a gap; empty if there is none. -/
def nameAt (text : List Char) : List Char :=
  if text.head?.any isNameStart then text.takeWhile isNameChar else []

/-- Any name or word. -/
def anyName : Reader String := do
  gap
  let text ← get
  let name := nameAt text
  ensure !name.isEmpty
  set (text.drop name.length)
  return String.ofList name

/-- One certain word. -/
def word (text : String) : Reader Unit := do
  let found ← anyName
  ensure (found == text)

/-- One of the words, if a character of the class follows it behind a gap. -/
def wordBefore (follows : Char → Bool) (words : List String) : Reader (List String) := do
  let found ← anyName
  ensure (words.contains found && (← ahead).head?.any follows)
  return [found]

/-- The word that comes next, if one does; it stays where it is. -/
def wordAhead : Reader String := do return String.ofList (nameAt (← ahead))

/-- Words that are never names of values. -/
def reservedWords : List String :=
  ["break", "case", "catch", "class", "const", "continue", "debugger", "default", "delete", "do",
   "else", "enum", "export", "extends", "false", "finally", "for", "function", "if", "import", "in",
   "instanceof", "new", "null", "return", "super", "switch", "this", "throw", "true", "try",
   "typeof", "var", "void", "while", "with", "yield", "await"]

/-- A name of a value. -/
def valueName : Reader String := do
  let name ← anyName
  ensure !reservedWords.contains name
  return name

/-- A private name, with its mark. -/
def privateName : Reader String := do
  mark "#"
  let text ← get
  let name := nameAt text
  ensure !name.isEmpty
  set (text.drop name.length)
  return "#" ++ String.ofList name

/-! ## Literals -/

/-- The character is a hexadecimal digit. -/
def isHexDigit (c : Char) : Bool :=
  c.isDigit || ('a' ≤ c && c ≤ 'f') || ('A' ≤ c && c ≤ 'F')

/-- What follows an escape whose backslash was read; none if it is not well formed. -/
def afterEscape? : List Char → Option (List Char)
  | [] => none
  | '\r' :: '\n' :: rest => some rest
  | 'x' :: rest =>
      if (rest.take 2).all isHexDigit && 2 ≤ rest.length then some (rest.drop 2) else none
  | 'u' :: '{' :: rest =>
      let digits := rest.takeWhile isHexDigit
      match rest.drop digits.length with
      | '}' :: after => if digits.isEmpty then none else some after
      | _ => none
  | 'u' :: rest =>
      if (rest.take 4).all isHexDigit && 4 ≤ rest.length then some (rest.drop 4) else none
  | _ :: rest => some rest

/-- The text up to a closing quote, and what follows the quote. Lines end only in escapes. -/
def quotedText? (quote : Char) : Nat → List Char → Option (List Char × List Char)
  | 0, _ => none
  | _ + 1, [] => none
  | fuel + 1, c :: rest =>
      if c == quote then some ([], rest)
      else if c == '\n' || c == '\r' then none
      else if c == '\\' then do
        let after ← afterEscape? rest
        let (text, behind) ← quotedText? quote fuel after
        return (c :: Text.upTo rest after ++ text, behind)
      else do
        let (text, behind) ← quotedText? quote fuel rest
        return (c :: text, behind)

/-- A text in single or double quotes, as it is written between them. -/
def quotedLiteral : Reader String := do
  gap
  match ← get with
  | q :: rest =>
      ensure (q == '"' || q == '\x27')
      match quotedText? q (rest.length + 1) rest with
      | some (text, behind) =>
          set behind
          return String.ofList text
      | none => failure
  | [] => failure

/-- The digits at the front and what follows them; single underscores may stand between them. -/
def digitRun (isDigit : Char → Bool) : List Char → List Char
  | c :: rest =>
      if isDigit c then digitRun isDigit rest
      else if c == '_' && rest.head?.any isDigit then digitRun isDigit rest
      else c :: rest
  | [] => []

/-- What follows the exponent of a number, if there is one. -/
def afterExponent (text : List Char) : List Char :=
  match text with
  | e :: rest =>
      if e == 'e' || e == 'E' then
        let digits := if rest.head? == some '+' || rest.head? == some '-' then rest.drop 1 else rest
        if digits.head?.any Char.isDigit then digitRun Char.isDigit digits else text
      else text
  | [] => []

/-- What follows a number; none if there is none at the front. -/
def afterNumber? (text : List Char) : Option (List Char) :=
  match text with
  | '0' :: base :: rest =>
      let digits : Option (Char → Bool) :=
        if base == 'x' || base == 'X' then some isHexDigit
        else if base == 'o' || base == 'O' || base == 'b' || base == 'B' then some Char.isDigit
        else none
      match digits with
      | some isDigit =>
          if rest.head?.any isDigit then some (afterSuffix (digitRun isDigit rest)) else none
      | none => decimal text
  | _ => decimal text
where
  /-- The mark of a large integer. -/
  afterSuffix (text : List Char) : List Char :=
    if text.head? == some 'n' then text.drop 1 else text
  /-- A number of base ten. -/
  decimal (text : List Char) : Option (List Char) :=
    if text.head?.any Char.isDigit then
      let whole := digitRun Char.isDigit text
      if whole.head? == some 'n' then some (whole.drop 1)
      else if whole.head? == some '.' then
        some (afterExponent (digitRun Char.isDigit (whole.drop 1)))
      else some (afterExponent whole)
    else if text.head? == some '.' && (text.drop 1).head?.any Char.isDigit then
      some (afterExponent (digitRun Char.isDigit (text.drop 1)))
    else none

/-- A number, as it is written. -/
def numberLiteral : Reader String := do
  gap
  let text ← get
  match afterNumber? text with
  | some rest =>
      ensure !(rest.head?.any isNameStart)
      set rest
      return String.ofList (Text.upTo text rest)
  | none => failure

/-- What follows the body of a regular expression whose opening slash was read. `inClass` says that
a bracket is open. -/
def afterPattern? : (inClass : Bool) → List Char → Option (List Char)
  | _, [] => none
  | inClass, '\\' :: c :: rest => if isLineEnd c then none else afterPattern? inClass rest
  | inClass, c :: rest =>
      if isLineEnd c || c == '\\' then none
      else if c == '/' && !inClass then some rest
      else afterPattern? (if c == '[' then true else if c == ']' then false else inClass) rest

/-- A regular expression. -/
def patternLiteral : Reader Unit := do
  mark "/"
  match afterPattern? false (← get) with
  | some rest => set (rest.dropWhile fun c => 'a' ≤ c && c ≤ 'z')
  | none => failure

/-- The piece of a template up to its end or to the next interpolation, and what follows the mark
that ends it; `true` stands for an interpolation. -/
def templatePiece? : Nat → List Char → Option (List Char × Bool × List Char)
  | 0, _ => none
  | _ + 1, [] => none
  | _ + 1, '`' :: rest => some ([], false, rest)
  | _ + 1, '$' :: '{' :: rest => some ([], true, rest)
  | fuel + 1, '\\' :: rest => do
      let after ← afterEscape? rest
      let (text, more) ← templatePiece? fuel after
      return ('\\' :: Text.upTo rest after ++ text, more)
  | fuel + 1, c :: rest => do
      let (text, more) ← templatePiece? fuel rest
      return (c :: text, more)

/-- The piece of a template up to its end or to the next interpolation. -/
def templatePiece : Reader (String × Bool) := do
  let text ← get
  match templatePiece? (text.length + 1) text with
  | some (piece, interpolated, rest) =>
      set rest
      return (String.ofList piece, interpolated)
  | none => failure

end ApiAtlas.Script
