import ApiAtlas.Json.Draft
import ApiAtlas.Json.Printer
import ApiAtlas.Proofs.Text.Run
set_option autoImplicit false

/-!
# Json: texts and numbers are read as they were written

Each reader gets the written form with an arbitrary rest behind it, takes exactly that form and
leaves the rest.  A text is ended by its closing quote, whatever follows; a number only by a
character that could not continue it.
-/

namespace ApiAtlas.Json

/-! ## Texts -/

/-- The digits of a control character are the last two of the four of its escape. -/
theorem hexValue4?_control : ∀ n < 32, ∃ a b,
    (if n < 16 then ['0'] else []) ++ Text.hexDigits n = [a, b] ∧
      Draft.hexValue4? '0' '0' a b = some n := by
  intro n hn
  have hall : ∀ n < 32, ((if n < 16 then ['0'] else []) ++ Text.hexDigits n).length = 2 ∧
      Draft.hexValue4? '0' '0' (((if n < 16 then ['0'] else []) ++ Text.hexDigits n).getD 0 ' ')
        (((if n < 16 then ['0'] else []) ++ Text.hexDigits n).getD 1 ' ') = some n := by
    decide +kernel
  obtain ⟨hlength, hvalue⟩ := hall n hn
  obtain ⟨a, b, hdigits⟩ := List.length_eq_two.mp hlength
  rw [hdigits] at hvalue
  exact ⟨a, b, hdigits, hvalue⟩

/-- A character is read back from its escaped form. -/
theorem readText_escapedChar (c : Char) (done rest : List Char) :
    Draft.readText done true none (escapedChar c ++ rest) =
      Draft.readText (c :: done) true none rest := by
  unfold escapedChar
  split
  · next h => rw [beq_iff_eq.mp h]; rfl
  split
  · next h => rw [beq_iff_eq.mp h]; rfl
  split
  · next h => rw [beq_iff_eq.mp h]; rfl
  split
  · next h => rw [beq_iff_eq.mp h]; rfl
  split
  · next h => rw [beq_iff_eq.mp h]; rfl
  split
  · next h => rw [beq_iff_eq.mp h]; rfl
  split
  · next h => rw [beq_iff_eq.mp h]; rfl
  split
  · next hcontrol =>
    obtain ⟨a, b, hdigits, hvalue⟩ := hexValue4?_control c.toNat hcontrol
    have htext : "\\u00".toList ++ (if c.toNat < 16 then ['0'] else []) ++ Text.hexDigits c.toNat =
        ['\\', 'u', '0', '0', a, b] := by
      rw [List.append_assoc, hdigits]
      rfl
    rw [htext]
    change Draft.readText done true none ('\\' :: 'u' :: '0' :: '0' :: a :: b :: rest) = _
    -- the code of a control character is no half of a surrogate pair
    rw [Draft.readText, hvalue]
    have hsecond : (0xDC00 ≤ c.toNat && c.toNat ≤ 0xDFFF) = false := by simp; omega
    have hfirst : (0xD800 ≤ c.toNat && c.toNat ≤ 0xDBFF) = false := by simp; omega
    simp only [hsecond, hfirst, Char.ofNat_toNat]
    rfl
  · next hquote hslash _ _ _ _ _ hcontrol =>
    have hq : c ≠ '"' := by simpa using hquote
    have hs : c ≠ '\\' := by simpa using hslash
    rw [List.singleton_append, Draft.readText]
    · rw [if_neg hcontrol]
      rfl
    · exact hq
    · intro a b c d rest h
      exact absurd h hs
    · intro e rest h
      exact absurd h hs

theorem readText_escaped (chars done rest : List Char) :
    Draft.readText done true none (chars.flatMap escapedChar ++ '"' :: rest) =
      some (some (String.ofList (done.reverse ++ chars)), rest) := by
  induction chars generalizing done with
  | nil =>
      rw [List.flatMap_nil, List.nil_append, List.append_nil, Draft.readText]
      rfl
  | cons c chars ih =>
      rw [List.flatMap_cons, List.append_assoc, readText_escapedChar, ih]
      simp

theorem toList_quote (t : String) :
    (quote t).toList = '"' :: (t.toList.flatMap escapedChar ++ ['"']) := by
  unfold quote
  simp

/-- A quoted text is read back. -/
theorem readText_quote (t : String) (rest : List Char) :
    Draft.readText [] true none (t.toList.flatMap escapedChar ++ '"' :: rest) =
      some (some t, rest) := by
  rw [readText_escaped]
  simp

/-! ## Numbers -/

/-- The number is an integer of 64 bits, signed or not. -/
def Number.Exact : Number → Prop
  | .integer i => -0x8000000000000000 ≤ i ∧ i < 0x10000000000000000
  | .real _ => False

instance (n : Number) : Decidable n.Exact :=
  match n with
  | .integer i => inferInstanceAs (Decidable (-0x8000000000000000 ≤ i ∧ i < 0x10000000000000000))
  | .real _ => isFalse id

/-- What may follow a value: nothing, or what separates it from the next one or from its bracket. -/
def Ends (rest : List Char) : Prop := ∀ c ∈ rest.head?, c = ',' ∨ c = '\n'

theorem Ends.stops {rest : List Char} (h : Ends rest) : Text.Stops Char.isDigit rest := by
  intro c hc
  rcases h c hc with rfl | rfl <;> rfl

theorem readFraction_of_ends {rest : List Char} (h : Ends rest) :
    Draft.readFraction rest = some ([], rest) := by
  cases rest with
  | nil => rfl
  | cons c rest => rcases h c rfl with rfl | rfl <;> rfl

theorem readExponent_of_ends {rest : List Char} (h : Ends rest) :
    Draft.readExponent rest = some (none, rest) := by
  cases rest with
  | nil => rfl
  | cons c rest => rcases h c rfl with rfl | rfl <;> rfl

theorem digitsValue_toDigits (n : Nat) : Draft.digitsValue (Nat.toDigits 10 n) = n := by
  have hfold : Draft.digitsValue (Nat.toDigits 10 n) =
      Nat.ofDigitChars 10 (Nat.toDigits 10 n) 0 := by
    rw [Nat.ofDigitChars_eq_foldl]
    unfold Draft.digitsValue
    simp only [Nat.mul_comm]
  rw [hfold, Nat.ofDigitChars_ten_toDigits]

/-- Only zero is written with a zero in front. -/
theorem head_toDigits (n : Nat) : (Nat.toDigits 10 n).head? = some '0' → n = 0 := by
  induction n using Nat.strongRecOn with
  | ind n ih =>
      intro hhead
      by_cases hn : n < 10
      · rw [Nat.toDigits_of_lt_base hn, List.head?_cons, Option.some.injEq] at hhead
        exact Nat.digitChar_eq_zero.mp hhead
      · have hsplit := Nat.toDigits_of_base_le (by decide : 1 < 10) (Nat.le_of_not_lt hn)
        rw [hsplit, List.head?_append_of_ne_nil _ Nat.toDigits_ne_nil] at hhead
        have := ih (n / 10) (by omega) hhead
        omega

theorem readUnsigned_toDigits (negative : Bool) (n : Nat) {rest : List Char} (h : Ends rest) :
    Draft.readUnsigned negative (Nat.toDigits 10 n ++ rest) =
      some (Draft.numberOf negative (Nat.toDigits 10 n) [] none, rest) := by
  have hdigits : ∀ c ∈ Nat.toDigits 10 n, c.isDigit = true :=
    fun c hc => Nat.isDigit_of_mem_toDigits (by decide) (by decide) hc
  have hfront : ((Nat.toDigits 10 n).isEmpty || ((Nat.toDigits 10 n).head? == some '0'
      && (Nat.toDigits 10 n).length > 1)) = false := by
    rw [Bool.or_eq_false_iff]
    constructor
    · rw [List.isEmpty_eq_false_iff]
      exact Nat.toDigits_ne_nil
    · by_cases hzero : n = 0
      · rw [hzero, Nat.toDigits_zero]
        rfl
      · have hhead : ((Nat.toDigits 10 n).head? == some '0') = false := by
          rw [beq_eq_false_iff_ne]
          exact fun hhead => hzero (head_toDigits n hhead)
        rw [hhead]
        rfl
  unfold Draft.readUnsigned
  simp only [Text.takeWhile_run hdigits h.stops, Text.dropWhile_run hdigits h.stops, hfront,
    Bool.false_eq_true, if_false, readFraction_of_ends h, Option.bind_eq_bind, Option.bind_some,
    readExponent_of_ends h]
  rfl

theorem numberOf_nat {n : Nat} (h : n < 0x10000000000000000) :
    Draft.numberOf false (Nat.toDigits 10 n) [] none = some (.integer n) := by
  unfold Draft.numberOf
  simp [digitsValue_toDigits]
  omega

theorem numberOf_neg {n : Nat} (hpos : n ≠ 0) (h : n ≤ 0x8000000000000000) :
    Draft.numberOf true (Nat.toDigits 10 n) [] none = some (.integer (-(n : Int))) := by
  unfold Draft.numberOf
  simp [digitsValue_toDigits, hpos]
  omega

theorem exists_toDigits (n : Nat) : ∃ c tail, Nat.toDigits 10 n = c :: tail ∧ c.isDigit = true := by
  cases hdigits : Nat.toDigits 10 n with
  | nil => exact absurd hdigits Nat.toDigits_ne_nil
  | cons c tail =>
      have hmem : c ∈ Nat.toDigits 10 n := hdigits ▸ List.mem_cons_self
      exact ⟨c, tail, rfl, Nat.isDigit_of_mem_toDigits (by decide) (by decide) hmem⟩

theorem readNumber_of_isDigit {c : Char} (hc : c.isDigit = true) (text : List Char) :
    Draft.readNumber (c :: text) = Draft.readUnsigned false (c :: text) := by
  unfold Draft.readNumber
  split
  · next heq =>
    obtain ⟨rfl, -⟩ := List.cons.inj heq
    exact absurd hc (by decide)
  · rfl

/-- An exact number starts with its sign or with a digit. -/
theorem exists_render {n : Number} (hexact : n.Exact) :
    ∃ c tail, n.render.toList = c :: tail ∧ (c = '-' ∨ c.isDigit = true) := by
  cases n with
  | real x => exact absurd hexact id
  | integer i =>
      have hrender : (Number.integer i).render = i.repr := Int.toString_eq_repr
      rw [hrender, Int.repr_eq_if]
      split
      · obtain ⟨c, tail, hdigits, hc⟩ := exists_toDigits i.toNat
        exact ⟨c, tail, by rw [Nat.repr_eq_ofList_toDigits, String.toList_ofList, hdigits], .inr hc⟩
      · exact ⟨'-', (-i).toNat.repr.toList, String.toList_append, .inl rfl⟩

/-- An exact number is read back. -/
theorem readNumber_render {n : Number} (hexact : n.Exact) {rest : List Char} (h : Ends rest) :
    Draft.readNumber (n.render.toList ++ rest) = some (some n, rest) := by
  cases n with
  | real x => exact absurd hexact id
  | integer i =>
      obtain ⟨hlow, hhigh⟩ := hexact
      have hrender : (Number.integer i).render = i.repr := Int.toString_eq_repr
      rw [hrender, Int.repr_eq_if]
      split
      · next hpos =>
        obtain ⟨c, tail, hdigits, hc⟩ := exists_toDigits i.toNat
        have hnumber := numberOf_nat (show i.toNat < 0x10000000000000000 by omega)
        have hread := readUnsigned_toDigits false i.toNat h
        rw [Nat.repr_eq_ofList_toDigits, String.toList_ofList]
        rw [hnumber, Int.toNat_of_nonneg hpos, hdigits] at hread
        rw [hdigits, List.cons_append, readNumber_of_isDigit hc]
        exact hread
      · next hneg =>
        have hnumber := numberOf_neg (show (-i).toNat ≠ 0 by omega)
          (show (-i).toNat ≤ 0x8000000000000000 by omega)
        have hread := readUnsigned_toDigits true (-i).toNat h
        have hvalue : -(((-i).toNat : Nat) : Int) = i := by omega
        rw [hnumber, hvalue] at hread
        simp only [String.toList_append, Nat.repr_eq_ofList_toDigits, String.toList_ofList]
        exact hread

end ApiAtlas.Json
