import ApiAtlas.Glob.Pattern
import ApiAtlas.Text.Raw
set_option autoImplicit false

/-!
# Glob patterns: matching

A pattern is matched against the bytes of a path.  A token takes a text to every rest it can leave,
and a pattern matches if it can leave nothing.  A character beyond ASCII stands for its bytes; in a
class it stands for each of them.
-/

namespace ApiAtlas

namespace Glob

/-- The bytes of a character. -/
def bytesOf (c : Char) : List UInt8 := String.utf8EncodeChar c

/-- The ranges of bytes that a range of characters stands for: the bytes of its ends one by one,
and the range from the last byte of the first to the first byte of the last. -/
def byteRanges (range : Char × Char) : List (UInt8 × UInt8) :=
  if range.1 == range.2 then (bytesOf range.1).map fun b => (b, b)
  else
    match (bytesOf range.1).reverse, bytesOf range.2 with
    | low :: before, high :: after =>
        (before.map fun b => (b, b)) ++ [(low, high)] ++ after.map fun b => (b, b)
    | _, _ => []

/-- The byte is in one of the ranges. -/
def inByteRanges (ranges : List (Char × Char)) (b : UInt8) : Bool :=
  (ranges.flatMap byteRanges).any fun r => r.1 ≤ b && b ≤ r.2

/-- The rests of a text behind any run, or any run without a slash. -/
def restsOfRun (stopAtSlash : Bool) : List UInt8 → List (List UInt8)
  | [] => [[]]
  | b :: rest =>
      (b :: rest) :: (if stopAtSlash && b == RawText.slash then [] else restsOfRun stopAtSlash rest)

/-- The rests of a text behind each of its slashes. -/
def restsOfSlashes : List UInt8 → List (List UInt8)
  | [] => []
  | b :: rest => if b == RawText.slash then rest :: restsOfSlashes rest else restsOfSlashes rest

/-- The rest of a text behind a slash at its front. -/
def restOfSlash : List UInt8 → List (List UInt8)
  | [] => []
  | b :: rest => if b == RawText.slash then [rest] else []

/-- The rest of a text behind one byte that the test accepts. -/
def restOfByte (accepts : UInt8 → Bool) : List UInt8 → List (List UInt8)
  | [] => []
  | b :: rest => if accepts b then [rest] else []

mutual

/-- The token stands for nothing: a group whose branches all do. -/
def Token.isVoid : Token → Bool
  | .alternatives branches => branchesVoid branches
  | _ => false

/-- All tokens stand for nothing. -/
def tokensVoid : List Token → Bool
  | [] => true
  | t :: rest => t.isVoid && tokensVoid rest

/-- All branches stand for nothing. -/
def branchesVoid : List (List Token) → Bool
  | [] => true
  | b :: rest => tokensVoid b && branchesVoid rest

end

mutual

/-- The rests that a token can leave of a text. A branch that stands for nothing is no
alternative, and a group without alternatives takes nothing. -/
def Token.rests (options : Options) (text : List UInt8) : Token → List (List UInt8)
  | .literal c => ((bytesOf c).isPrefixOf? text).toList
  | .any => restOfByte (fun b => !(options.stopAtSlash && b == RawText.slash)) text
  | .run => restsOfRun options.stopAtSlash text
  | .leading => [text] ++ restOfSlash text ++ restsOfSlashes text
  | .trailing => (restOfSlash text).flatMap (restsOfRun false)
  | .between => (restOfSlash text).flatMap fun rest => rest :: restsOfSlashes rest
  | .oneOf negated ranges => restOfByte (fun b => inByteRanges ranges b != negated) text
  | .alternatives branches =>
      if branchesVoid branches then [text] else branchRests options text branches

/-- The rests that a sequence of tokens can leave of one of several texts. -/
def tokenRests (options : Options) (texts : List (List UInt8)) : List Token → List (List UInt8)
  | [] => texts
  | t :: more =>
      tokenRests options (Text.distinct (texts.flatMap fun text => t.rests options text)) more

/-- The rests that one of the branches can leave of a text. -/
def branchRests (options : Options) (text : List UInt8) : List (List Token) → List (List UInt8)
  | [] => []
  | b :: more =>
      (if tokensVoid b then [] else tokenRests options [text] b) ++ branchRests options text more

end

end Glob

/-- A pattern for paths. -/
structure Glob where
  options : Glob.Options
  tokens : List Glob.Token
  deriving Inhabited

namespace Glob

/-- Read a pattern. -/
def ofText (options : Options) (pattern : String) : Except Fault Glob := do
  return ⟨options, ← parse options pattern.toList⟩

/-- The pattern is nothing but a double star. -/
def isEverything (g : Glob) : Bool :=
  match g.tokens with
  | [.leading] => true
  | _ => false

/-- The pattern matches a path. -/
def isMatch (g : Glob) (path : RawText) : Bool :=
  g.isEverything
    || (tokenRests g.options [path.bytes] g.tokens).any (·.isEmpty)

end Glob

end ApiAtlas
