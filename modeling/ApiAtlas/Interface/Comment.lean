import ApiAtlas.Text.Search
set_option autoImplicit false

/-!
# Interface: comments

The text of an interface definition is cut into pieces: string literals, comments, and single
characters of anything else.  The pieces tile the text; leaving the comments out strips it.
-/

namespace ApiAtlas.Interface

/-- A piece of the text. -/
inductive Piece
  /-- A string literal with its quotes. -/
  | literal (text : List Char)
  /-- A comment with its marks. -/
  | comment (text : List Char)
  /-- One character outside of both. -/
  | plain (c : Char)
  deriving DecidableEq, Repr, Inhabited

/-- The text of a piece. -/
def Piece.text : Piece → List Char
  | .literal text => text
  | .comment text => text
  | .plain c => [c]

/-- The rest of a string literal behind its opening quote, up to and with the closing one, and what
follows. A line feed ends no literal unless a backslash stands before it. -/
def literalEnd? : List Char → Option (List Char × List Char)
  | [] => none
  | '"' :: rest => some (['"'], rest)
  | '\n' :: _ => none
  | '\\' :: c :: rest => (literalEnd? rest).map fun r => ('\\' :: c :: r.1, r.2)
  | ['\\'] => none
  | c :: rest => (literalEnd? rest).map fun r => (c :: r.1, r.2)

/-- The rest of a block comment behind its opening mark, up to and with the closing one, and what
follows. -/
def blockEnd? : List Char → Option (List Char × List Char)
  | [] => none
  | '*' :: '/' :: rest => some (['*', '/'], rest)
  | c :: rest => (blockEnd? rest).map fun r => (c :: r.1, r.2)

/-- The piece at the front of a text that starts with `c`, and what is left. A quote or a comment
mark that nothing closes is a plain character. -/
def firstPiece (c : Char) (rest : List Char) : Piece × List Char :=
  if c == '"' then
    match literalEnd? rest with
    | some (inside, after) => (.literal (c :: inside), after)
    | none => (.plain c, rest)
  else if c == '/' then
    match rest with
    | '/' :: more =>
        (.comment ('/' :: '/' :: more.takeWhile (· != '\n')), more.dropWhile (· != '\n'))
    | '*' :: more =>
        match blockEnd? more with
        | some (inside, after) => (.comment ('/' :: '*' :: inside), after)
        | none => (.plain c, rest)
    | _ => (.plain c, rest)
  else (.plain c, rest)

/-- The first `fuel` pieces of a text. -/
def piecesWithin : Nat → List Char → List Piece
  | 0, _ => []
  | _ + 1, [] => []
  | fuel + 1, c :: rest =>
      let (piece, after) := firstPiece c rest
      piece :: piecesWithin fuel after

/-- The pieces of a text. Each has at least one character, so the length bounds their number. -/
def pieces (text : List Char) : List Piece := piecesWithin text.length text

/-- What stripping leaves of a piece. -/
def Piece.kept : Piece → List Char
  | .comment _ => []
  | p => p.text

/-- The text without its comments. -/
def stripComments (text : List Char) : List Char := (pieces text).flatMap Piece.kept

end ApiAtlas.Interface
