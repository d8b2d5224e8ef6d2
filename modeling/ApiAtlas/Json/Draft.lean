import ApiAtlas.Json.Value
set_option autoImplicit false

/-!
# Json: reading text

A text is read into a draft: everything up to the first place where the text stops being JSON, with
that place marked.  A decoder that walks a draft in order meets a value of the wrong type before a
later mark and a mark before a later value, so the first problem in the text is the one it reports.

Two things are kept open by a draft because they only matter to a decoder that wants the value: a
number too large for its format, and a text whose escapes name no character.
-/

namespace ApiAtlas

namespace Json

/-- A value as far as the text holds one. -/
inductive Draft
  /-- The text stops being JSON here. -/
  | malformed
  | null
  | bool (value : Bool)
  /-- A number, unless it is too large. -/
  | number (value : Option Number)
  /-- A text, unless one of its escapes is half a surrogate pair. -/
  | text (value : Option String)
  /-- The items, and whether the closing bracket follows them. -/
  | array (items : List Draft) (closed : Bool)
  /-- The members, and whether the closing bracket follows them. -/
  | object (members : List (String × Draft)) (closed : Bool)
  deriving Inhabited

/-- A draft, and whether nothing but blanks follows it. -/
structure Reading where
  draft : Draft
  complete : Bool

namespace Draft

mutual

/-- The draft of a value: nothing in it is malformed. -/
def ofJson : Json → Draft
  | .null => .null
  | .bool b => .bool b
  | .number n => .number (some n)
  | .text t => .text (some t)
  | .array items => .array (ofItems items) true
  | .object members => .object (ofMembers members) true

/-- The drafts of a list of values. -/
def ofItems : List Json → List Draft
  | [] => []
  | v :: rest => ofJson v :: ofItems rest

/-- The members with the drafts of their values. -/
def ofMembers : List (String × Json) → List (String × Draft)
  | [] => []
  | (k, v) :: rest => (k, ofJson v) :: ofMembers rest

end

mutual

/-- The text of this part is JSON to its end. -/
def wellFormed : Draft → Bool
  | .malformed => false
  | .array items closed => wellFormedItems items && closed
  | .object members closed => wellFormedMembers members && closed
  | _ => true

/-- Every item is JSON to its end. -/
def wellFormedItems : List Draft → Bool
  | [] => true
  | d :: rest => d.wellFormed && wellFormedItems rest

/-- Every member is JSON to its end. -/
def wellFormedMembers : List (String × Draft) → Bool
  | [] => true
  | (_, d) :: rest => d.wellFormed && wellFormedMembers rest

end

mutual

/-- The value of a draft, if it has one and nests less than `depth` containers. -/
def value? : Nat → Draft → Option Json
  | _, .malformed => none
  | _, .null => some .null
  | _, .bool b => some (.bool b)
  | _, .number n => n.map .number
  | _, .text t => t.map .text
  | depth, .array items closed =>
      if depth ≤ 1 || !closed then none else (items? (depth - 1) items).map .array
  | depth, .object members closed =>
      if depth ≤ 1 || !closed then none else (members? (depth - 1) members).map .object

/-- The values of a list of drafts. -/
def items? : Nat → List Draft → Option (List Json)
  | _, [] => some []
  | depth, d :: rest => do
      let v ← value? depth d
      let vs ← items? depth rest
      return v :: vs

/-- The values of a list of members. -/
def members? : Nat → List (String × Draft) → Option (List (String × Json))
  | _, [] => some []
  | depth, (k, d) :: rest => do
      let v ← value? depth d
      let vs ← members? depth rest
      return (k, v) :: vs

end

/-! ## Reading -/

/-- The blanks of JSON. -/
def isSpace (c : Char) : Bool := c == ' ' || c == '\n' || c == '\t' || c == '\r'

/-- The value of a digit in base sixteen. -/
def hexValue? (c : Char) : Option Nat :=
  if c.isDigit then some (c.toNat - '0'.toNat)
  else if 'a' ≤ c && c ≤ 'f' then some (c.toNat - 'a'.toNat + 10)
  else if 'A' ≤ c && c ≤ 'F' then some (c.toNat - 'A'.toNat + 10)
  else none

/-- The number of four digits in base sixteen. -/
def hexValue4? (a b c d : Char) : Option Nat := do
  let a ← hexValue? a
  let b ← hexValue? b
  let c ← hexValue? c
  let d ← hexValue? d
  return ((a * 16 + b) * 16 + c) * 16 + d

/-- The character of a one-letter escape. -/
def escape? : Char → Option Char
  | '"' => some '"'
  | '\\' => some '\\'
  | '/' => some '/'
  | 'b' => some '\x08'
  | 'f' => some '\x0c'
  | 'n' => some '\n'
  | 'r' => some '\r'
  | 't' => some '\t'
  | _ => none

/-- The character that a surrogate pair stands for. -/
def joinSurrogates (high low : Nat) : Char :=
  Char.ofNat (0x10000 + (high - 0xD800) * 0x400 + (low - 0xDC00))

/-- Read a text behind its opening quote.  `done` holds the characters read, last first; `good` is
false once half a surrogate pair was met; `high` is a first half that waits for its second. The
result is the text, if it is one, and what follows the closing quote. -/
def readText (done : List Char) (good : Bool) (high : Option Nat) :
    List Char → Option (Option String × List Char)
  | [] => none
  | '"' :: rest =>
      some (if good && high.isNone then some (String.ofList done.reverse) else none, rest)
  | '\\' :: 'u' :: a :: b :: c :: d :: rest =>
      match hexValue4? a b c d with
      | none => none
      | some n =>
          let second := 0xDC00 ≤ n && n ≤ 0xDFFF
          match high with
          | some h =>
              if second then readText (joinSurrogates h n :: done) good none rest
              else readText done false none rest
          | none =>
              if second then readText done false none rest
              else if 0xD800 ≤ n && n ≤ 0xDBFF then readText done good (some n) rest
              else readText (Char.ofNat n :: done) good none rest
  | '\\' :: e :: rest =>
      match escape? e with
      | none => none
      | some c => readText (c :: done) (good && high.isNone) none rest
  | c :: rest =>
      if c.toNat < 0x20 then none else readText (c :: done) (good && high.isNone) none rest

/-- The number that a run of decimal digits writes. -/
def digitsValue (digits : List Char) : Nat :=
  digits.foldl (fun n c => n * 10 + (c.toNat - '0'.toNat)) 0

/-- Read a fraction, if there is one: its digits and what follows. None when the point has no digit
behind it. -/
def readFraction : List Char → Option (List Char × List Char)
  | '.' :: rest =>
      let digits := rest.takeWhile Char.isDigit
      if digits.isEmpty then none else some (digits, rest.dropWhile Char.isDigit)
  | rest => some ([], rest)

/-- Read the digits of an exponent, of which there must be one. -/
def readExponentDigits (negative : Bool) (rest : List Char) : Option (Option Int × List Char) :=
  let digits := rest.takeWhile Char.isDigit
  if digits.isEmpty then none
  else
    let n : Int := digitsValue digits
    some (some (if negative then -n else n), rest.dropWhile Char.isDigit)

/-- Read an exponent, if there is one. None when its mark has no digit behind it. -/
def readExponent : List Char → Option (Option Int × List Char)
  | c :: rest =>
      if c == 'e' || c == 'E' then
        match rest with
        | '+' :: more => readExponentDigits false more
        | '-' :: more => readExponentDigits true more
        | more => readExponentDigits false more
      else some (none, c :: rest)
  | [] => some (none, [])

/-- The number with the given parts. An integer of 64 bits stays one, except minus zero. -/
def numberOf (negative : Bool) (whole fraction : List Char) (exponent : Option Int) :
    Option Number :=
  let n := digitsValue whole
  if fraction.isEmpty && exponent.isNone
      && (if negative then n != 0 && n ≤ Nat.pow 2 63 else n < Nat.pow 2 64) then
    some (.integer (if negative then -(n : Int) else n))
  else
    (Decimal.Binary64.ofDecimal? negative (digitsValue (whole ++ fraction))
      (exponent.getD 0 - fraction.length)).map .real

/-- Read a number without its sign. -/
def readUnsigned (negative : Bool) (text : List Char) : Option (Option Number × List Char) := do
  let whole := text.takeWhile Char.isDigit
  if whole.isEmpty || (whole.head? == some '0' && whole.length > 1) then none
  let (fraction, afterFraction) ← readFraction (text.dropWhile Char.isDigit)
  let (exponent, rest) ← readExponent afterFraction
  return (numberOf negative whole fraction exponent, rest)

/-- Read a number. None when the text is no number. -/
def readNumber : List Char → Option (Option Number × List Char)
  | '-' :: rest => readUnsigned true rest
  | input => readUnsigned false input

mutual

/-- Read a value. What follows it is none when the text stopped being JSON. -/
def readValue : Nat → List Char → Draft × Option (List Char)
  | 0, _ => (.malformed, none)
  | fuel + 1, input =>
      match input.dropWhile isSpace with
      | '[' :: rest =>
          let (items, after) := readItems fuel true rest
          (.array items after.isSome, after)
      | '{' :: rest =>
          let (members, after) := readMembers fuel true rest
          (.object members after.isSome, after)
      | '"' :: rest =>
          match readText [] true none rest with
          | some (t, after) => (.text t, some after)
          | none => (.malformed, none)
      | 'n' :: 'u' :: 'l' :: 'l' :: rest => (.null, some rest)
      | 't' :: 'r' :: 'u' :: 'e' :: rest => (.bool true, some rest)
      | 'f' :: 'a' :: 'l' :: 's' :: 'e' :: rest => (.bool false, some rest)
      | rest =>
          match readNumber rest with
          | some (n, after) => (.number n, some after)
          | none => (.malformed, none)

/-- Read the items of an array behind its bracket or behind a comma. -/
def readItems : Nat → Bool → List Char → List Draft × Option (List Char)
  | 0, _, _ => ([], none)
  | fuel + 1, first, input =>
      match input.dropWhile isSpace, first with
      | ']' :: rest, true => ([], some rest)
      | rest, _ =>
          match readValue fuel rest with
          | (d, none) => ([d], none)
          | (d, some after) =>
              match after.dropWhile isSpace with
              | ']' :: more => ([d], some more)
              | ',' :: more =>
                  let (items, afterItems) := readItems fuel false more
                  (d :: items, afterItems)
              | _ => ([d], none)

/-- Read the members of an object behind its bracket or behind a comma. -/
def readMembers : Nat → Bool → List Char → List (String × Draft) × Option (List Char)
  | 0, _, _ => ([], none)
  | fuel + 1, first, input =>
      match input.dropWhile isSpace, first with
      | '}' :: rest, true => ([], some rest)
      | '"' :: rest, _ =>
          match readText [] true none rest with
          | some (some key, afterKey) =>
              match afterKey.dropWhile isSpace with
              | ':' :: more =>
                  match readValue fuel more with
                  | (d, none) => ([(key, d)], none)
                  | (d, some after) =>
                      match after.dropWhile isSpace with
                      | '}' :: more => ([(key, d)], some more)
                      | ',' :: more =>
                          let (members, afterMembers) := readMembers fuel false more
                          ((key, d) :: members, afterMembers)
                      | _ => ([(key, d)], none)
              | _ => ([(key, .malformed)], none)
          | _ => ([], none)
      | _, _ => ([], none)

end

/-- Read a text as far as it is JSON. -/
def read (text : String) : Reading :=
  let chars := text.toList
  match readValue (2 * chars.length + 2) chars with
  | (d, none) => ⟨d, false⟩
  | (d, some rest) => ⟨d, (rest.dropWhile isSpace).isEmpty⟩

end Draft

/-- The value of a text that is JSON. -/
def parse? (text : String) : Option Json :=
  let r := Draft.read text
  if r.complete then r.draft.value? (2 * text.length + 2) else none

end Json

end ApiAtlas
