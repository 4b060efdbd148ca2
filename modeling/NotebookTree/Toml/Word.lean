import NotebookTree.Decimal.Nearest
import NotebookTree.Toml.Basic

/-!
# Words of TOML

A truth value, a number or a date is a word of letters, digits and a few signs. `Toml.ofWord?` gives
the value of a word. An integer fits in 64 bits with a sign. Underscores may stand between digits.
-/

namespace NotebookTree.Toml

/-- The characters of words. -/
def isWordChar (c : Char) : Bool :=
  Text.isAsciiAlphanum c || c == '_' || c == '-' || c == '+' || c == '.' || c == ':'

/-! ## Numbers -/

/-- Removes the underscores between digits. There must be a digit on either side of each, and at
least one digit at all. -/
def ungroup? (isDigit : Char → Bool) : List Char → Option (List Char)
  | [] => none
  | [c] => if isDigit c then some [c] else none
  | c :: '_' :: rest => if isDigit c then (ungroup? isDigit rest).map (c :: ·) else none
  | c :: rest => if isDigit c then (ungroup? isDigit rest).map (c :: ·) else none

/-- Takes a sign off, if there is one. -/
def splitSign : List Char → List Char × List Char
  | '-' :: rest => (['-'], rest)
  | '+' :: rest => (['+'], rest)
  | chars => ([], chars)

/-- The digits of a decimal integer without a sign, which has no superfluous zeros. -/
def wholeDigits? (chars : List Char) : Option (List Char) :=
  match ungroup? Char.isDigit chars with
  | some ('0' :: _ :: _) => none
  | digits => digits

/-- One more than the greatest integer, and the magnitude of the least one. -/
def integerBound : Nat := Nat.pow 2 63

/-- An integer that fits in 64 bits. -/
def ofInteger? (n : Int) : Option Toml :=
  if -(integerBound : Int) ≤ n ∧ n < integerBound then some (integer n) else none

/-- Reads the digits of an integer that has the mark of its base before it. -/
def ofBasedDigits? (base : Nat) (chars : List Char) : Option Toml := do
  let digits ← ungroup? (fun c ↦ (Text.digitValue? base c).isSome) chars
  ofInteger? (Text.ofDigits base digits)

/-- Reads an integer. -/
def integerOfWord? : List Char → Option Toml
  | '0' :: 'x' :: rest => ofBasedDigits? 16 rest
  | '0' :: 'o' :: rest => ofBasedDigits? 8 rest
  | '0' :: 'b' :: rest => ofBasedDigits? 2 rest
  | chars => do
    let (sign, rest) := splitSign chars
    let n : Int := Text.ofDigits 10 (← wholeDigits? rest)
    ofInteger? (if sign = ['-'] then -n else n)

/-- Is the letter of an exponent here? -/
def isExponentLetter (c : Char) : Bool := c == 'e' || c == 'E'

/-- The digits of an exponent with its letter and sign. -/
def exponentDigits? : List Char → Option (List Char)
  | [] => some []
  | _ :: rest => do
    let (sign, rest) := splitSign rest
    let digits ← ungroup? Char.isDigit rest
    return 'e' :: sign ++ digits

/-- The digits of a fraction with its point, and of an exponent. -/
def fractionDigits? : List Char → Option (List Char)
  | '.' :: rest => do
    let places ← ungroup? Char.isDigit (rest.takeWhile fun c ↦ !isExponentLetter c)
    let exponent ← exponentDigits? (rest.dropWhile fun c ↦ !isExponentLetter c)
    return '.' :: places ++ exponent
  | rest => exponentDigits? rest

/-- Reads a number with a fraction or an exponent. A number beyond the doubles is refused, but
below them it is the negative infinity. -/
def decimalOfWord? (chars : List Char) : Option Toml := do
  let (sign, rest) := splitSign chars
  let isWhole (c : Char) : Bool := c != '.' && !isExponentLetter c
  let whole ← wholeDigits? (rest.takeWhile isWhole)
  let places ← fractionDigits? (rest.dropWhile isWhole)
  guard (!places.isEmpty)
  match Decimal.ofText? (sign ++ whole ++ places) with
  | some x => return real x
  | none => if sign = ['-'] then return real (-1.0 / 0.0) else none

/-- Reads an infinity, or what is no number. -/
def specialOfWord? (chars : List Char) : Option Toml :=
  match splitSign chars with
  | (sign, ['i', 'n', 'f']) => some (real (if sign = ['-'] then -1.0 / 0.0 else 1.0 / 0.0))
  | (_, ['n', 'a', 'n']) => some (real (0.0 / 0.0))
  | _ => none

/-! ## Dates and times -/

/-- Reads a number of the given count of digits within bounds. -/
def field? (count low high : Nat) (chars : List Char) : Option (Nat × List Char) :=
  let digits := chars.take count
  let n := Text.ofDigits 10 digits
  if digits.length = count && digits.all Char.isDigit && low ≤ n && n ≤ high then
    some (n, chars.drop count)
  else none

/-- Is there a 29th of February in the year? -/
def isLeapYear (year : Nat) : Bool :=
  year % 4 = 0 && (year % 100 != 0 || year % 400 = 0)

/-- The number of days of a month. -/
def daysOfMonth (year month : Nat) : Nat :=
  if month = 2 then (if isLeapYear year then 29 else 28)
  else if month ∈ [4, 6, 9, 11] then 30
  else 31

/-- Skips a date. -/
def skipDate? (chars : List Char) : Option (List Char) := do
  let (year, rest) ← field? 4 0 9999 chars
  let (month, rest) ← Text.dropStart? ['-'] rest >>= field? 2 1 12
  let (_, rest) ← Text.dropStart? ['-'] rest >>= field? 2 1 (daysOfMonth year month)
  return rest

/-- Skips the places of a second. -/
def skipPlaces? : List Char → Option (List Char)
  | '.' :: rest =>
    if (rest.takeWhile Char.isDigit).isEmpty then none else some (rest.dropWhile Char.isDigit)
  | rest => some rest

/-- Skips a time of the day. -/
def skipTime? (chars : List Char) : Option (List Char) := do
  let (_, rest) ← field? 2 0 23 chars
  let (_, rest) ← Text.dropStart? [':'] rest >>= field? 2 0 59
  let (_, rest) ← Text.dropStart? [':'] rest >>= field? 2 0 60
  skipPlaces? rest

/-- Is this the end, or a distance from universal time? -/
def isZone : List Char → Bool
  | [] | ['Z'] | ['z'] => true
  | '+' :: rest | '-' :: rest =>
    match field? 2 0 23 rest with
    | some (_, ':' :: rest) => (field? 2 0 59 rest).any (·.2.isEmpty)
    | _ => false
  | _ => false

/-- Is this a date alone? -/
def isDate (chars : List Char) : Bool := skipDate? chars == some []

/-- Is this a date, a time or both? Only with a date a time may have a zone. -/
def isDateTime (chars : List Char) : Bool :=
  match skipDate? chars with
  | some [] => true
  | some (c :: rest) => (c == 'T' || c == 't' || c == ' ') && (skipTime? rest).any isZone
  | none => skipTime? chars == some []

/-- The value of a word. -/
def ofWord? (chars : List Char) : Option Toml :=
  if chars = ['t', 'r', 'u', 'e'] then some (bool true)
  else if chars = ['f', 'a', 'l', 's', 'e'] then some (bool false)
  else if isDateTime chars then some (dateTime (String.ofList chars))
  else (integerOfWord? chars).or ((decimalOfWord? chars).or (specialOfWord? chars))

end NotebookTree.Toml
