set_option autoImplicit false

/-!
# Glob patterns

A glob pattern is a text with wildcards: `*`, `?`, classes in brackets, alternatives in braces, and
`**` for any number of directories when it is a whole component of the path.  A backslash takes the
meaning from the next character.  Reading a pattern yields its tokens or the first fault.
-/

namespace ApiAtlas.Glob

/-- A part of a pattern. -/
inductive Token
  | literal (c : Char)
  /-- One character, written `?`. -/
  | any
  /-- Any run of characters, written `*`. -/
  | run
  /-- Any number of directories at the front, written `**/`. -/
  | leading
  /-- Everything below a directory, written `/**`. -/
  | trailing
  /-- Any number of directories in the middle, written `/**/`. -/
  | between
  | oneOf (negated : Bool) (ranges : List (Char × Char))
  | alternatives (branches : List (List Token))
  deriving Repr, Inhabited

/-- Why a text is no pattern. -/
inductive Fault
  | unclosedClass
  | invalidRange (first last : Char)
  | unopenedGroup
  | unclosedGroup
  | danglingEscape
  deriving DecidableEq, Repr, Inhabited

/-- The wording of a fault. -/
def Fault.message : Fault → String
  | .unclosedClass => "unclosed character class; missing ']'"
  | .invalidRange first last =>
      "invalid range; '" ++ first.toString ++ "' > '" ++ last.toString ++ "'"
  | .unopenedGroup =>
      "unopened alternate group; missing '\x7b' (maybe escape '\x7d' with '[\x7d]'?)"
  | .unclosedGroup =>
      "unclosed alternate group; missing '\x7d' (maybe escape '\x7b' with '[\x7b]'?)"
  | .danglingEscape => "dangling '\\'"

/-- What a fault of a pattern is reported as. -/
def Fault.report (pattern : String) (fault : Fault) : String :=
  "error parsing glob '" ++ pattern ++ "': " ++ fault.message

/-- How patterns are read and matched. -/
structure Options where
  /-- Wildcards stop at slashes. -/
  stopAtSlash : Bool := false
  /-- A bracket that no bracket closes stands for itself. -/
  openBracketIsText : Bool := false
  deriving DecidableEq, Repr, Inhabited

/-- Extend the last range of a class, which comes first in the list. -/
def extendRange (last : Char) : List (Char × Char) → Except Fault (List (Char × Char))
  | [] => .ok [(last, last)]
  | (first, _) :: rest =>
      if last < first then .error (.invalidRange first last) else .ok ((first, last) :: rest)

/-- Read a class behind its opening: its ranges and what follows. `ranges` is reversed; `inRange`
says that a dash was read and its other end is awaited. -/
def readClass : (first inRange : Bool) → (ranges : List (Char × Char)) → List Char →
    Except Fault (List (Char × Char) × List Char)
  | _, _, _, [] => .error .unclosedClass
  | first, inRange, ranges, c :: rest =>
      if c == ']' && !first then
        .ok ((if inRange then ('-', '-') :: ranges else ranges).reverse, rest)
      else if c == '-' && !first && !inRange then readClass false true ranges rest
      else if inRange then do
        let ranges ← extendRange c ranges
        readClass false false ranges rest
      else readClass false false ((c, c) :: ranges) rest

/-- Read a class behind its opening bracket. -/
def classToken (text : List Char) : Except Fault (Token × List Char) := do
  let negated := text.head? == some '!' || text.head? == some '^'
  let (ranges, rest) ← readClass true false [] (if negated then text.drop 1 else text)
  return (.oneOf negated ranges, rest)

/-- A group of alternatives that is still open: the branches read so far and the tokens of the
current one, both reversed. The outermost frame is the pattern itself. -/
structure Frame where
  branches : List (List Token) := []
  tokens : List Token := []
  deriving Inhabited

/-- Append a token to the current branch. -/
def Frame.push (f : Frame) (t : Token) : Frame := { f with tokens := t :: f.tokens }

/-- Take up a double star: it counts as recursive when it is a whole component.  `before` is the
character in front of it; yields the frame and what is left of the text behind the stars. -/
def Frame.doubleStar (inGroup : Bool) (before : Option Char) (f : Frame) (rest : List Char) :
    Frame × List Char :=
  let plain := ((f.push .run).push .run, rest)
  match f.tokens with
  | [] =>
      match rest with
      | [] => (f.push .leading, [])
      | c :: more => if c == '/' then (f.push .leading, more) else plain
  | last :: earlier =>
      let opensComponent := before == some '/'
        || (inGroup && (before == some ',' || before == some '{'))
      let replaced (t : Token) : Frame :=
        match last with
        | .leading => f
        | .trailing => f
        | _ => { f with tokens := t :: earlier }
      if !opensComponent then plain
      else
        match rest with
        | [] => (replaced .trailing, [])
        | c :: more =>
            if inGroup && (c == ',' || c == '}') then (replaced .trailing, rest)
            else if c == '/' then (replaced .between, more)
            else plain

/-- Read a pattern. `bracketsAreText` says that an unclosed bracket was met, `before` is the
character read last, `frame` the innermost group and `outer` those around it. -/
def readFrom (options : Options) : Nat → Bool → Option Char → Frame → List Frame → List Char →
    Except Fault (List Token)
  | 0, _, _, _, _, _ => .error .unclosedGroup
  | _ + 1, _, _, frame, outer, [] =>
      if outer.isEmpty then .ok frame.tokens.reverse else .error .unclosedGroup
  | fuel + 1, bracketsAreText, before, frame, outer, c :: rest =>
      let go := readFrom options fuel bracketsAreText
      match c with
      | '?' => go (some c) (frame.push .any) outer rest
      | '*' =>
          match rest with
          | '*' :: more =>
              let (frame, left) := frame.doubleStar (!outer.isEmpty) before more
              go (if left.length < more.length then some '/' else some '*') frame outer left
          | _ => go (some c) (frame.push .run) outer rest
      | '[' =>
          if bracketsAreText then go (some c) (frame.push (.literal c)) outer rest
          else
            match classToken rest with
            | .ok (token, left) => go (some ']') (frame.push token) outer left
            | .error .unclosedClass =>
                if options.openBracketIsText then
                  readFrom options fuel true (some c) (frame.push (.literal c)) outer rest
                else .error .unclosedClass
            | .error fault => .error fault
      | '{' => go (some c) {} (frame :: outer) rest
      | '}' =>
          match outer with
          | [] => .error .unopenedGroup
          | parent :: outer =>
              let branches := (frame.tokens.reverse :: frame.branches).reverse
              go (some c) (parent.push (.alternatives branches)) outer rest
      | ',' =>
          if outer.isEmpty then go (some c) (frame.push (.literal c)) outer rest
          else go (some c) ⟨frame.tokens.reverse :: frame.branches, []⟩ outer rest
      | '\\' =>
          match rest with
          | [] => .error .danglingEscape
          | escaped :: rest => go (some escaped) (frame.push (.literal escaped)) outer rest
      | _ => go (some c) (frame.push (.literal c)) outer rest

/-- The tokens of a pattern. Each step reads at least one character. -/
def parse (options : Options) (pattern : List Char) : Except Fault (List Token) :=
  readFrom options (pattern.length + 1) false none {} [] pattern

end ApiAtlas.Glob
