import ApiAtlas.Json.Draft
import ApiAtlas.Text.Quoted
set_option autoImplicit false

/-!
# Json: decoding

A decoder takes a draft to a value of the domain or to the first fault in the order of the text.  A
record is decoded field by field: members set their fields in the order in which they stand, unknown
members are passed over, and a required field that is missing is reported at the end of the object.
A record may also be written as an array of its fields in the order of their declaration.
-/

namespace ApiAtlas.Json

/-- Where a draft comes from.  A value held in memory has lost the order of its members and knows
the number of its items beforehand, which shows in a few faults. -/
inductive Origin
  | text
  | value
  deriving DecidableEq, Repr, Inhabited

/-- Why a draft does not fit. -/
inductive Mismatch
  | missingField (name : String)
  | duplicateField (name : String)
  | unknownVariant (found : String) (known : List String)
  | invalidType (found expected : String)
  | invalidValue (found expected : String)
  | invalidLength (length : Nat) (expected : String)
  deriving DecidableEq, Repr, Inhabited

/-- The known variants as a message lists them. -/
def alternatives : List String → String
  | [] => "there are no variants"
  | [a] => "expected `" ++ a ++ "`"
  | [a, b] => "expected `" ++ a ++ "` or `" ++ b ++ "`"
  | many => "expected one of " ++ String.intercalate ", " (many.map fun v => "`" ++ v ++ "`")

/-- The wording of a mismatch. -/
def Mismatch.message : Mismatch → String
  | .missingField name => "missing field `" ++ name ++ "`"
  | .duplicateField name => "duplicate field `" ++ name ++ "`"
  | .unknownVariant found known => "unknown variant `" ++ found ++ "`, " ++ alternatives known
  | .invalidType found expected => "invalid type: " ++ found ++ ", expected " ++ expected
  | .invalidValue found expected => "invalid value: " ++ found ++ ", expected " ++ expected
  | .invalidLength n expected => "invalid length " ++ toString n ++ ", expected " ++ expected

/-- What can be wrong with a text that should hold a value of the domain. -/
inductive Fault
  /-- The text is not JSON. -/
  | syntaxFault
  /-- The text is JSON of another shape. -/
  | mismatch (cause : Mismatch)
  deriving DecidableEq, Repr, Inhabited

/-- A decoder of values of type `α`. -/
abbrev Decoder (α : Type) := Origin → Draft → Except Fault α

/-- How a message names what it found, unless the draft is no value at all. -/
def Draft.described? : Draft → Option String
  | .malformed => none
  | .null => some "null"
  | .bool b => some ("boolean `" ++ (if b then "true" else "false") ++ "`")
  | .number (some (.integer i)) => some ("integer `" ++ toString i ++ "`")
  | .number (some (.real x)) => some ("floating point `" ++ x.text ++ "`")
  | .number none => none
  | .text (some t) => some ("string " ++ Text.quoted t)
  | .text none => none
  | .array _ _ => some "sequence"
  | .object _ _ => some "map"

/-- The fault of finding `d` where `expected` should stand. -/
def Draft.unexpected (d : Draft) (expected : String) : Fault :=
  match d.described? with
  | some found => .mismatch (.invalidType found expected)
  | none => .syntaxFault

namespace Decoder

/-- A text; `expected` names what it stands for. -/
def textAs (expected : String) : Decoder String
  | _, .text (some t) => .ok t
  | _, d => .error (d.unexpected expected)

/-- A text. -/
def text : Decoder String := textAs "a string"

/-- The text of a path. -/
def path : Decoder String := textAs "path string"

/-- A boolean. -/
def bool : Decoder Bool
  | _, .bool b => .ok b
  | _, d => .error (d.unexpected "a boolean")

/-- A natural number of 64 bits. -/
def nat64 : Decoder Nat
  | _, .number (some (.integer i)) =>
      if 0 ≤ i then .ok i.toNat
      else .error (.mismatch (.invalidValue ("integer `" ++ toString i ++ "`") "u64"))
  | _, d => .error (d.unexpected "u64")

/-- Null. -/
def unit : Decoder Unit
  | _, .null => .ok ()
  | _, d => .error (d.unexpected "unit")

/-- Null for none, anything else by the given decoder. -/
def optional {α : Type} (decode : Decoder α) : Decoder (Option α)
  | _, .null => .ok none
  | origin, d => (decode origin d).map some

/-- The items of an array, in order. -/
def items {α : Type} (decode : Decoder α) (origin : Origin) : List Draft → Except Fault (List α)
  | [] => .ok []
  | d :: rest => do
      let a ← decode origin d
      let more ← items decode origin rest
      return a :: more

/-- An array of values. -/
def list {α : Type} (decode : Decoder α) : Decoder (List α)
  | origin, .array drafts closed => do
      let values ← items decode origin drafts
      if closed then return values else throw .syntaxFault
  | _, d => .error (d.unexpected "a sequence")

/-- The members of an object put into a dictionary, in order. -/
def entries {α : Type} (decode : Decoder α) (origin : Origin) (start : Dict α) :
    List (String × Draft) → Except Fault (Dict α)
  | [] => .ok start
  | (k, d) :: rest => do
      let a ← decode origin d
      entries decode origin (start.insert k a) rest

/-- An object whose keys are free. -/
def dict {α : Type} (decode : Decoder α) : Decoder (Dict α)
  | origin, .object members closed => do
      let d ← entries decode origin .empty members
      if closed then return d else throw .syntaxFault
  | _, d => .error (d.unexpected "a map")

/-- The variant of a name. -/
def named {α : Type} (variants : List (String × α)) (name : String) : Except Fault α :=
  match variants.lookup name with
  | some a => .ok a
  | none => .error (.mismatch (.unknownVariant name (variants.map (·.1))))

/-- One of several names, or an object that holds null under the name. -/
def variant {α : Type} (variants : List (String × α)) : Decoder α
  | _, .text (some name) => named variants name
  | .text, .object ((name, d) :: more) closed => do
      let a ← named variants name
      unit .text d
      if more.isEmpty && closed then return a else throw .syntaxFault
  | .text, _ => .error .syntaxFault
  | .value, .object [(name, d)] _ => do
      let a ← named variants name
      unit .value d
      return a
  | .value, .object _ _ => .error (.mismatch (.invalidValue "map" "map with a single key"))
  | .value, d => .error (d.unexpected "string or map")

/-- A value of any shape, in canonical form, that nests less than `depth` containers. -/
def any (depth : Nat) : Decoder Json
  | _, d =>
      match d.value? depth with
      | some v => .ok v.canonical
      | none => .error .syntaxFault

end Decoder

/-! ## Records -/

/-- Whether a field has to be there. -/
inductive Presence
  /-- It has to. -/
  | required
  /-- An object may leave it out, an array may not. -/
  | nullable
  /-- It may be left out. -/
  | defaulted
  deriving DecidableEq, Repr, Inhabited

/-- A field of a record `σ`: its key, whether it has to be there, and how a draft sets it. -/
structure Field (σ : Type) where
  key : String
  presence : Presence
  set : Origin → Draft → σ → Except Fault σ

/-- A field by its decoder and its update. -/
def Field.of {σ α : Type} (key : String) (presence : Presence) (decode : Decoder α)
    (update : σ → α → σ) : Field σ :=
  ⟨key, presence, fun origin d s => (decode origin d).map (update s)⟩

/-- A kind of record: its name in messages, its fields in the order of their declaration, and the
record that absent fields are taken from. -/
structure Record (σ : Type) where
  name : String
  fields : List (Field σ)
  start : σ

namespace Record

variable {σ : Type}

/-- Set the fields of the members one after the other. `seen` holds the keys already set. -/
def setMembers (fields : List (Field σ)) (origin : Origin) :
    List String → σ → List (String × Draft) → Except Fault (List String × σ)
  | seen, s, [] => .ok (seen, s)
  | seen, s, (key, d) :: rest =>
      match fields.find? (·.key == key) with
      | none => if d.wellFormed then setMembers fields origin seen s rest else .error .syntaxFault
      | some f => do
          if seen.contains key then throw (.mismatch (.duplicateField key))
          let s ← f.set origin d s
          setMembers fields origin (key :: seen) s rest

/-- What a message calls an array of the right length. -/
def lengthText (r : Record σ) : String :=
  "struct " ++ r.name ++ " with " ++ toString r.fields.length
    ++ (if r.fields.length == 1 then " element" else " elements")

/-- Set the fields of the items of an array, in the order of their declaration. -/
def setItems (r : Record σ) (origin : Origin) (total : Nat) (closed : Bool) :
    Nat → σ → List (Field σ) → List Draft → Except Fault σ
  | _, s, [], [] => if closed then .ok s else .error .syntaxFault
  | _, _, [], _ :: _ =>
      match origin with
      | .text => .error .syntaxFault
      | .value => .error (.mismatch (.invalidLength total "fewer elements in array"))
  | index, s, f :: fields, [] =>
      if !closed then .error .syntaxFault
      else if f.presence != .defaulted then .error (.mismatch (.invalidLength index r.lengthText))
      else setItems r origin total closed (index + 1) s fields []
  | index, s, f :: fields, d :: drafts => do
      let s ← f.set origin d s
      setItems r origin total closed (index + 1) s fields drafts

/-- Decode a record. -/
def decode (r : Record σ) : Decoder σ
  | origin, .object members closed => do
      let (seen, s) ← setMembers r.fields origin [] r.start members
      if !closed then throw .syntaxFault
      match r.fields.find? fun f => f.presence == .required && !seen.contains f.key with
      | some f => throw (.mismatch (.missingField f.key))
      | none => return s
  | origin, .array drafts closed =>
      setItems r origin drafts.length closed 0 r.start r.fields drafts
  | _, d => .error (d.unexpected ("struct " ++ r.name))

end Record

/-- Decode a text that holds one value and nothing else. -/
def decodeText {α : Type} (decode : Decoder α) (text : String) : Except Fault α := do
  let r := Draft.read text
  let a ← decode .text r.draft
  if r.complete then return a else throw .syntaxFault

/-- Decode a value held in memory. -/
def decodeValue {α : Type} (decode : Decoder α) (v : Json) : Except Fault α :=
  decode .value (Draft.ofJson v.canonical)

end ApiAtlas.Json
