set_option autoImplicit false

/-!
# Decimal: binary64 numbers in exact arithmetic

A finite binary64 number is a sign, a significand below `2 ^ 53` and a power of two.  Reading a
decimal rounds the exact quotient to the nearest such number, ties to the even significand.  Writing
picks the fewest decimal digits that read back as the same number.  Both use natural numbers only.
-/

namespace ApiAtlas.Decimal

/-- The number `± significand * 2 ^ exponent`. -/
structure Binary64 where
  negative : Bool
  significand : Nat
  exponent : Int
  deriving DecidableEq, Repr, Inhabited

/-- The fraction `numerator / denominator` scaled by `2 ^ (-exponent)`. -/
def scaled (numerator denominator : Nat) (exponent : Int) : Nat × Nat :=
  if exponent < 0 then (numerator * Nat.pow 2 exponent.natAbs, denominator)
  else (numerator, denominator * Nat.pow 2 exponent.natAbs)

/-- Round a fraction to the nearest natural number, a half to the even one. -/
def roundHalfEven (numerator denominator : Nat) : Nat :=
  let q := numerator / denominator
  let r := numerator % denominator
  if 2 * r < denominator then q
  else if denominator < 2 * r then q + 1
  else if q % 2 == 0 then q else q + 1

/-- The power of two that gives a fraction a significand of 53 bits, as far as the format goes. -/
def exponentFor (numerator denominator : Nat) : Int :=
  let guess : Int := (numerator.log2 : Int) - denominator.log2 - 52
  let scaledDown := scaled numerator denominator guess
  let fitted := if scaledDown.1 / scaledDown.2 < Nat.pow 2 52 then guess - 1 else guess
  max fitted (-1074)

namespace Binary64

/-- The number nearest to `± numerator / denominator`, if it is not beyond the largest one. -/
def ofFraction? (negative : Bool) (numerator denominator : Nat) : Option Binary64 :=
  if numerator == 0 then some ⟨negative, 0, -1074⟩
  else
    let exponent := exponentFor numerator denominator
    let fraction := scaled numerator denominator exponent
    let significand := roundHalfEven fraction.1 fraction.2
    let carried : Nat × Int :=
      if significand == Nat.pow 2 53 then (Nat.pow 2 52, exponent + 1) else (significand, exponent)
    if carried.2 > 971 then none else some ⟨negative, carried.1, carried.2⟩

/-- The number nearest to `± digits * 10 ^ exponent`, if there is one. Exponents far outside the
range of the format are settled without computing the power. -/
def ofDecimal? (negative : Bool) (digits : Nat) (exponent : Int) : Option Binary64 :=
  if digits == 0 then some ⟨negative, 0, -1074⟩
  else if exponent > 400 then none
  else if exponent + digits.log2 < -1200 then some ⟨negative, 0, -1074⟩
  else if exponent < 0 then ofFraction? negative digits (Nat.pow 10 exponent.natAbs)
  else ofFraction? negative (digits * Nat.pow 10 exponent.natAbs) 1

/-- `significand * 2 ^ exponent` as a fraction. -/
def fraction (significand : Nat) (exponent : Int) : Nat × Nat :=
  if exponent < 0 then (significand, Nat.pow 2 exponent.natAbs)
  else (significand * Nat.pow 2 exponent.natAbs, 1)

/-- The power of ten below a positive fraction: the largest `k` with `10 ^ k ≤ n / d` among the
`fuel` ones from `k` down. -/
def decade (n d : Nat) : Nat → Int → Int
  | 0, k => k
  | fuel + 1, k =>
      let reached := if k < 0 then d ≤ n * Nat.pow 10 k.natAbs else d * Nat.pow 10 k.natAbs ≤ n
      if reached then k else decade n d fuel (k - 1)

/-- The first digit count from `count` on for which a neighbour of the value on the decimal grid
lies between `low` and `high`; the result is `digits * 10 ^ power`. Fractions are pairs. -/
def shortestFrom (value low high : Nat × Nat) (closed : Bool) (top : Int) :
    Nat → Nat → Nat × Int
  | 0, _ => (0, 0)
  | fuel + 1, count =>
      let power := top - (count : Int) + 1
      let unit : Nat × Nat :=
        if power < 0 then (1, Nat.pow 10 power.natAbs) else (Nat.pow 10 power.natAbs, 1)
      let below := (value.1 * unit.2) / (value.2 * unit.1)
      let within (g : Nat) : Bool :=
        let n := g * unit.1
        let d := unit.2
        if closed then low.1 * d ≤ n * low.2 && n * high.2 ≤ high.1 * d
        else low.1 * d < n * low.2 && n * high.2 < high.1 * d
      -- twice the value against the middle of the two neighbours
      let twice := 2 * value.1 * unit.2
      let middle := (2 * below + 1) * unit.1 * value.2
      let nearBelow := if twice == middle then below % 2 == 0 else twice < middle
      if within below && (nearBelow || !within (below + 1)) then (below, power)
      else if within (below + 1) then (below + 1, power)
      else shortestFrom value low high closed top fuel (count + 1)

/-- The fewest decimal digits that read back as the same number, and their power of ten. -/
def shortest (x : Binary64) : Nat × Int :=
  if x.significand == 0 then (0, 0)
  else
    let value := fraction x.significand x.exponent
    let high := fraction (2 * x.significand + 1) (x.exponent - 1)
    let low :=
      if x.significand == Nat.pow 2 52 && x.exponent > -1074 then
        fraction (4 * x.significand - 1) (x.exponent - 2)
      else fraction (2 * x.significand - 1) (x.exponent - 1)
    shortestFrom value low high (x.significand % 2 == 0) (decade value.1 value.2 640 310) 17 1

/-- A digit text without the zeros at its end. -/
def withoutFinalZeros (digits : List Char) : List Char :=
  (digits.reverse.dropWhile (· == '0')).reverse

/-- At least two digits for an exponent. -/
def exponentDigits (n : Nat) : String := if n < 10 then "0" ++ toString n else toString n

/-- The text of a number: the shortest digits, written positionally when the power of ten of the
first digit is from -5 to 15 and with a signed exponent otherwise. -/
def text (x : Binary64) : String :=
  let sign := if x.negative then "-" else ""
  if x.significand == 0 then sign ++ "0.0"
  else
    let (digits, power) := shortest x
    let all := (toString digits).toList
    let lead : Int := power + all.length - 1
    let body := withoutFinalZeros all
    let written :=
      if -5 ≤ lead && lead < 0 then
        "0." ++ String.ofList (List.replicate (lead.natAbs - 1) '0' ++ body)
      else if 0 ≤ lead && lead ≤ 15 then
        let whole := lead.toNat + 1
        let padded := body ++ List.replicate (whole - body.length) '0'
        let rest := padded.drop whole
        String.ofList (padded.take whole) ++ "."
          ++ (if rest.isEmpty then "0" else String.ofList rest)
      else
        let tail := body.drop 1
        String.ofList (body.take 1) ++ (if tail.isEmpty then "" else "." ++ String.ofList tail)
          ++ (if lead < 0 then "e-" else "e+") ++ exponentDigits lead.natAbs
    sign ++ written

end Binary64

end ApiAtlas.Decimal
