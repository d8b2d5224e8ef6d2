import ApiAtlas.Text.Search
set_option autoImplicit false

/-!
# Text: names as a file system holds them

A file system holds names and paths as bytes.  Mostly they encode a text, but they need not.  Such a
name has no text, and where it is shown a replacement character stands for each run of bytes that
belongs to no character.
-/

namespace ApiAtlas

/-- The text that bytes encode. -/
def Text.ofBytes? (bytes : ByteArray) : Option String :=
  if h : bytes.IsValidUTF8 then some (String.ofByteArray bytes h) else none

/-- A name or a path as a file system holds it. -/
structure RawText where
  bytes : List UInt8
  deriving DecidableEq, Repr, Inhabited

namespace RawText

/-- A slash. -/
def slash : UInt8 := 0x2f

/-- A dot. -/
def dot : UInt8 := 0x2e

/-- The bytes of a text. -/
def ofText (text : String) : RawText := ⟨text.toList.flatMap String.utf8EncodeChar⟩

instance : Coe String RawText := ⟨ofText⟩

/-- The text that the bytes encode, if they encode one. -/
def text? (raw : RawText) : Option String := Text.ofBytes? raw.bytes.toByteArray

/-- There are no bytes. -/
def isEmpty (raw : RawText) : Bool := raw.bytes.isEmpty

/-- Names with slashes between them. -/
def joined (names : List RawText) : RawText :=
  ⟨List.intercalate [slash] (names.map (·.bytes))⟩

/-- The least and the greatest byte that can follow a first one in a character. -/
def secondBounds (first : UInt8) : UInt8 × UInt8 :=
  if first == 0xe0 then (0xa0, 0xbf)
  else if first == 0xed then (0x80, 0x9f)
  else if first == 0xf0 then (0x90, 0xbf)
  else if first == 0xf4 then (0x80, 0x8f)
  else (0x80, 0xbf)

/-- How many bytes of a text that starts with no character are replaced together: as many as a
character could have started with, and at least one. -/
def strayLength : List UInt8 → Nat
  | first :: second :: rest =>
      let bounds := secondBounds first
      if 0xe0 ≤ first && first ≤ 0xf4 && bounds.1 ≤ second && second ≤ bounds.2 then
        if 0xf0 ≤ first && rest.head?.any fun b => 0x80 ≤ b && b ≤ 0xbf then 3 else 2
      else 1
  | _ => 1

/-- The characters of bytes, with a replacement for what belongs to none. Each takes up at least one
byte. -/
def shownWithin : Nat → List UInt8 → List Char
  | 0, _ => []
  | _ + 1, [] => []
  | fuel + 1, bytes =>
      match bytes.toByteArray.utf8DecodeChar? 0 with
      | some c => c :: shownWithin fuel (bytes.drop c.utf8Size)
      | none => '\uFFFD' :: shownWithin fuel (bytes.drop (strayLength bytes))

/-- The text by which the bytes are shown. -/
def display (raw : RawText) : String :=
  raw.text?.getD (String.ofList (shownWithin raw.bytes.length raw.bytes))

theorem toByteArray_bytes_ofText (text : String) :
    (ofText text).bytes.toByteArray = text.toByteArray :=
  text.utf8Encode_toList

@[simp] theorem text?_ofText (text : String) : (ofText text).text? = some text := by
  have hvalid : (ofText text).bytes.toByteArray.IsValidUTF8 := by
    rw [toByteArray_bytes_ofText]
    exact text.isValidUTF8
  rw [text?, Text.ofBytes?, dif_pos hvalid, Option.some.injEq]
  exact String.toByteArray_inj.mp (toByteArray_bytes_ofText text)

/-- Only the bytes of a text encode it. -/
theorem text?_eq_some_iff {raw : RawText} {text : String} :
    raw.text? = some text ↔ raw = ofText text := by
  constructor
  · intro h
    unfold text? Text.ofBytes? at h
    split at h
    · have hbytes : raw.bytes.toByteArray = (ofText text).bytes.toByteArray := by
        rw [toByteArray_bytes_ofText, ← Option.some.inj h]
      have hlist := congrArg (·.data.toList) hbytes
      simp only [List.toList_data_toByteArray] at hlist
      rw [← RawText.mk.injEq] at hlist
      exact hlist
    · exact absurd h (by simp)
  · intro h
    rw [h, text?_ofText]

@[simp] theorem display_ofText (text : String) : (ofText text).display = text := by
  rw [display, text?_ofText, Option.getD_some]

end RawText

end ApiAtlas
