import NotebookTree.Decimal.Shortest

/-!
# Decimal notation of doubles

A double is written with its shortest digits. A `FloatFormat` fixes the rest: which magnitudes are
written positionally, and how an exponent is written.
-/

namespace NotebookTree.Decimal

/-- The digits of a natural number, most significant first. -/
def natDigits (n : Nat) : List Char :=
  Nat.toDigits 10 n

/-- The digits of an integer, with a minus sign if it is negative. -/
def intDigits (n : Int) : List Char :=
  if n < 0 then '-' :: natDigits n.natAbs else natDigits n.natAbs

/-- How the digits of a double become text. -/
structure FloatFormat where
  /-- The least decimal exponent of the leading digit that is written positionally. -/
  leastPositional : Int
  /-- The greatest decimal exponent of the leading digit that is written positionally. -/
  greatestPositional : Int
  /-- Is a positive exponent written with its sign? -/
  signedExponent : Bool

/-- Positional notation of `digits * 10 ^ exponent`, always with a fraction. -/
def positional (digits : List Char) (exponent : Int) : List Char :=
  let zeros (n : Nat) : List Char := List.replicate n '0'
  if 0 ≤ exponent then
    digits ++ zeros exponent.toNat ++ ['.', '0']
  else
    let places := exponent.natAbs
    if digits.length ≤ places then
      ['0', '.'] ++ zeros (places - digits.length) ++ digits
    else
      digits.take (digits.length - places) ++ '.' :: digits.drop (digits.length - places)

/-- Scientific notation, with a point only if there is more than one digit. -/
def scientific (format : FloatFormat) (digits : List Char) (leading : Int) : List Char :=
  let mantissa := match digits with
    | first :: rest@(_ :: _) => first :: '.' :: rest
    | _ => digits
  let sign := if format.signedExponent && 0 ≤ leading then ['+'] else []
  mantissa ++ 'e' :: sign ++ intDigits leading

/-- The text of a finite double. -/
def floatChars (format : FloatFormat) (x : Float) : List Char :=
  let negative := x.toBits.toNat / Nat.pow 2 63 = 1
  let magnitude := match shortest? x with
    | none => ['0', '.', '0']
    | some s =>
      let digits := natDigits s.digits
      let leading := s.exponent + digits.length - 1
      if format.leastPositional ≤ leading && leading ≤ format.greatestPositional then
        positional digits s.exponent
      else
        scientific format digits leading
  if negative then '-' :: magnitude else magnitude

end NotebookTree.Decimal
