import ApiAtlas.Text.CaseTable
set_option autoImplicit false

/-!
# Text: upper and lower case

The full case mappings: one character may become several, and a capital sigma becomes the final
small sigma when it ends a word.  ASCII characters never reach the tables.
-/

namespace ApiAtlas.Text

/-- The image of a code point under the first run that holds it. -/
def mapByRuns (runs : List CaseRun) (n : Nat) : Nat :=
  match runs.find? fun r => r.first ≤ n && n ≤ r.last && (n - r.first) % r.step == 0 with
  | some r => ((n : Int) + r.delta).toNat
  | none => n

/-- Apply the expansions where there is one and the runs elsewhere. -/
def mapCase (expansions : List (Nat × List Nat)) (runs : List CaseRun) (c : Char) : List Char :=
  match expansions.lookup c.toNat with
  | some image => image.map Char.ofNat
  | none => [Char.ofNat (mapByRuns runs c.toNat)]

/-- The upper-case form of a character. -/
def upper (c : Char) : List Char :=
  if c.toNat < 128 then [c.toUpper] else mapCase upperExpansions upperRuns c

/-- The lower-case form of a character that stands alone. -/
def lower (c : Char) : List Char :=
  if c.toNat < 128 then [c.toLower] else mapCase lowerExpansions lowerRuns c

/-- Capital sigma, the one character whose lower-case form depends on its neighbours. -/
def capitalSigma : Char := Char.ofNat 0x3A3

/-- Small sigma as it is written at the end of a word. -/
def finalSigma : Char := Char.ofNat 0x3C2

/-- After the characters that are passed over comes one that has case. -/
def casedAhead (neighbours : List Char) : Bool :=
  ((neighbours.dropWhile (inRanges caseIgnorableRanges)).head?).any (inRanges casedRanges)

/-- Lower-case a text whose already read part is `before`, nearest character first. -/
def lowerFrom : List Char → List Char → List Char
  | _, [] => []
  | before, c :: rest =>
      (if c == capitalSigma && casedAhead before && !casedAhead rest then [finalSigma]
       else lower c) ++ lowerFrom (c :: before) rest

/-- The lower-case form of a text. -/
def lowered (text : List Char) : List Char := lowerFrom [] text

/-- The text with its first character in upper case. -/
def titled : List Char → List Char
  | [] => []
  | c :: rest => upper c ++ rest

/-- Equality up to the case of ASCII letters. -/
def eqIgnoringAsciiCase (a b : List Char) : Bool :=
  a.map Char.toLower == b.map Char.toLower

end ApiAtlas.Text
