import NotebookTree.Decimal.Format
import NotebookTree.Text.Blank

/-!
# Reading decimal notation

`nearest?` gives the double that is nearest to a fraction, where a tie goes to the even one, in
exact arithmetic. `ofText?` reads a decimal number with an optional sign, fraction and exponent.
Numbers beyond the greatest finite double are refused.
-/

namespace NotebookTree.Decimal

/-- A quotient rounded to the nearest natural number, a tie to the even one. -/
def roundDiv (num den : Nat) : Nat :=
  let q := num / den
  let r := num % den
  if 2 * r < den then q else if den < 2 * r then q + 1 else q + q % 2

/-- The fraction `num / (den * 2 ^ q)` rounded. -/
def scaledRound (num den : Nat) (q : Int) : Nat :=
  if 0 ≤ q then roundDiv num (den * Nat.pow 2 q.toNat)
  else roundDiv (num * Nat.pow 2 q.natAbs) den

/-- Is the fraction below the given power of two? -/
def belowPower (num den : Nat) (q : Int) : Bool :=
  if 0 ≤ q then num < den * Nat.pow 2 q.toNat else num * Nat.pow 2 q.natAbs < den

/-- The nearest double to a fraction that is not negative. -/
def nearest? (num den : Nat) : Option Float :=
  if num = 0 then some 0.0
  else
    let guess : Int := (num.log2 : Int) - den.log2
    let leading := if belowPower num den guess then guess - 1 else guess
    let q := max (leading - 52) (-1074)
    let significand := scaledRound num den q
    let bits :=
      if significand < Nat.pow 2 52 then significand
      else (q + 1074).toNat * Nat.pow 2 52 + significand
    if bits < 0x7ff * Nat.pow 2 52 then some (Float.ofBits bits.toUInt64) else none

/-- The greatest number of decimal places before or after the point of a double. -/
def maxPlaces : Nat := 400

/-- The nearest double to `significand * 10 ^ exponent`. -/
def ofParts? (significand : Nat) (exponent : Int) : Option Float :=
  if significand = 0 then some 0.0
  else
    let places := exponent + (natDigits significand).length
    if (maxPlaces : Int) < places then none
    else if places < -(maxPlaces : Int) then some 0.0
    else if 0 ≤ exponent then nearest? (significand * Nat.pow 10 exponent.toNat) 1
    else nearest? significand (Nat.pow 10 exponent.natAbs)

/-- Reads an integer with an optional sign. -/
def exponent? (chars : List Char) : Option Int :=
  let (negative, digits) := match chars with
    | '-' :: rest => (true, rest)
    | '+' :: rest => (false, rest)
    | _ => (false, chars)
  if digits.isEmpty || !digits.all Char.isDigit then none
  else
    let n : Int := Text.ofDigits 10 digits
    some (if negative then -n else n)

/-- Reads a decimal number without a sign. -/
def unsigned? (chars : List Char) : Option Float := do
  let whole := chars.takeWhile Char.isDigit
  let (places, rest) := match chars.dropWhile Char.isDigit with
    | '.' :: rest => (rest.takeWhile Char.isDigit, rest.dropWhile Char.isDigit)
    | rest => ([], rest)
  guard (!(whole.isEmpty && places.isEmpty))
  let exponent ← match rest with
    | [] => some 0
    | c :: rest => if c = 'e' ∨ c = 'E' then exponent? rest else none
  ofParts? (Text.ofDigits 10 (whole ++ places)) (exponent - places.length)

/-- Reads a decimal number. -/
def ofText? (chars : List Char) : Option Float :=
  match chars with
  | '-' :: rest => (unsigned? rest).map (-·)
  | '+' :: rest => unsigned? rest
  | _ => unsigned? chars

end NotebookTree.Decimal
