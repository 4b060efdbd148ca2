import NotebookTree.Json.Basic
import NotebookTree.Text.Blank

/-!
# Reading JSON text

The reader takes a list of characters and gives back a value and the characters after it. A text
is valid if one value takes all of it but blanks. Arrays and objects nest at most `maxDepth`
levels. The only reason for refusal is that the text is no such JSON, so the readers answer with
an option.

An integer that fits in 64 bits is kept. Any other number is a double: its significand holds as
many leading digits as fit in 64 bits, and is then scaled by powers of ten, at most `10 ^ 308` at
a time. A double that is not finite makes the text invalid.
-/

namespace NotebookTree.Json

/-- The greatest nesting depth of arrays and objects. -/
def maxDepth : Nat := 127

/-- The greatest unsigned 64-bit number. -/
def maxWord : Nat := Nat.pow 2 64 - 1

/-- Drops blanks. -/
def skipBlanks : List Char → List Char
  | c :: rest =>
    if c == ' ' || c == '\n' || c == '\t' || c == '\r' then skipBlanks rest else c :: rest
  | [] => []

/-! ## Numbers -/

/-- Ten to a power that is at most 308. -/
def powerOfTen (n : Nat) : Float := Float.ofScientific 1 false n

/-- Scales a double by a power of ten, `308` decimal places at a time. Nothing if it overflows. -/
def scale? (x : Float) (exponent : Int) : Nat → Option Float
  | 0 => some x
  | steps + 1 =>
    if exponent.natAbs ≤ 308 then
      if 0 ≤ exponent then
        let y := x * powerOfTen exponent.natAbs
        if y.isInf then none else some y
      else some (x / powerOfTen exponent.natAbs)
    else if x == 0.0 then some x
    else if 0 ≤ exponent then none
    else scale? (x / powerOfTen 308) (exponent + 308) steps

/-- The double `significand * 10 ^ exponent` with the given sign. -/
def realOfParts? (positive : Bool) (significand : Nat) (exponent : Int) : Option Number := do
  let x ← scale? significand.toUInt64.toFloat exponent (exponent.natAbs / 308 + 2)
  return .real (if positive then x else -x)

/-- An exponent is read as a 32-bit number. -/
def maxExponent : Nat := Nat.pow 2 31 - 1

/-- Keeps a sum of exponents within 32 bits. -/
def clampExponent (e : Int) : Int :=
  max (-(maxExponent : Int) - 1) (min e maxExponent)

/-- Reads the exponent after its letter. -/
def exponent? (positive : Bool) (significand : Nat) (start : Int) (cs : List Char) :
    Option (Number × List Char) := do
  let (up, cs) := match cs with
    | '+' :: rest => (true, rest)
    | '-' :: rest => (false, rest)
    | _ => (true, cs)
  let digits := cs.takeWhile Char.isDigit
  let rest := cs.dropWhile Char.isDigit
  guard (!digits.isEmpty)
  let size := Text.ofDigits 10 digits
  if maxExponent < size then
    guard (significand = 0 || !up)
    return (.real (if positive then 0.0 else -0.0), rest)
  else
    let e := if up then start + (size : Int) else start - (size : Int)
    return (← realOfParts? positive significand (clampExponent e), rest)

/-- Goes on with an exponent if one follows. -/
def exponentOrEnd? (positive : Bool) (significand : Nat) (exponent : Int) (cs : List Char) :
    Option (Number × List Char) :=
  match cs with
  | c :: rest =>
    if c == 'e' || c == 'E' then exponent? positive significand exponent rest
    else (realOfParts? positive significand exponent).map (·, cs)
  | [] => (realOfParts? positive significand exponent).map (·, cs)

/-- Reads the digits after the point. Digits that no longer fit are dropped. -/
def fraction? (positive : Bool) (start : Int) (significand : Nat) (places : Nat) :
    List Char → Option (Number × List Char)
  | c :: rest =>
    if c.isDigit then
      let next := significand * 10 + (c.toNat - '0'.toNat)
      if maxWord < next then
        exponentOrEnd? positive significand (start - places) (rest.dropWhile Char.isDigit)
      else fraction? positive start next (places + 1) rest
    else if places = 0 then none
    else exponentOrEnd? positive significand (start - places) (c :: rest)
  | [] =>
    if places = 0 then none else exponentOrEnd? positive significand (start - places) []

/-- Goes on after the digits before the point, `dropped` of which did not fit. -/
def afterInteger? (positive : Bool) (significand dropped : Nat) (cs : List Char) :
    Option (Number × List Char) :=
  match cs with
  | '.' :: rest => fraction? positive dropped significand 0 rest
  | _ => exponentOrEnd? positive significand dropped cs

/-- The number of an integer without fraction or exponent. Zero keeps a minus sign as a double. -/
def integerNumber (positive : Bool) (n : Nat) : Number :=
  if positive then .integer n
  else if n = 0 ∨ Nat.pow 2 63 < n then .real (-n.toUInt64.toFloat)
  else .integer (-(n : Int))

/-- Reads the digits before the point. -/
def integer? (positive : Bool) (significand : Nat) : List Char → Option (Number × List Char)
  | c :: rest =>
    if c.isDigit then
      let next := significand * 10 + (c.toNat - '0'.toNat)
      if maxWord < next then
        afterInteger? positive significand ((c :: rest).takeWhile Char.isDigit).length
          (rest.dropWhile Char.isDigit)
      else integer? positive next rest
    else if c == '.' || c == 'e' || c == 'E' then afterInteger? positive significand 0 (c :: rest)
    else some (integerNumber positive significand, c :: rest)
  | [] => some (integerNumber positive significand, [])

/-- Reads a number after its sign. A leading zero stands alone. -/
def unsigned? (positive : Bool) : List Char → Option (Number × List Char)
  | '0' :: c :: rest => if c.isDigit then none else integer? positive 0 (c :: rest)
  | c :: rest => if c.isDigit then integer? positive 0 (c :: rest) else none
  | [] => none

/-! ## Strings -/

/-- Reads four hexadecimal digits. -/
def hex4? : List Char → Option (Nat × List Char)
  | a :: b :: c :: d :: rest => do
    let a ← Text.digitValue? 16 a
    let b ← Text.digitValue? 16 b
    let c ← Text.digitValue? 16 c
    let d ← Text.digitValue? 16 d
    return (((a * 16 + b) * 16 + c) * 16 + d, rest)
  | _ => none

/-- Reads a `\u` escape after its letter. Two surrogates in the right order make one character,
and a lone one is refused. -/
def unicodeEscape? (cs : List Char) : Option (Char × List Char) := do
  let (high, rest) ← hex4? cs
  if 0xdc00 ≤ high ∧ high ≤ 0xdfff then none
  else if 0xd800 ≤ high ∧ high ≤ 0xdbff then
    match rest with
    | '\\' :: 'u' :: more =>
      let (low, rest) ← hex4? more
      guard (0xdc00 ≤ low ∧ low ≤ 0xdfff)
      return (Char.ofNat (0x10000 + (high - 0xd800) * 0x400 + (low - 0xdc00)), rest)
    | _ => none
  else return (Char.ofNat high, rest)

/-- Reads an escape after the backslash. -/
def escape? : List Char → Option (Char × List Char)
  | '"' :: rest => some ('"', rest)
  | '\\' :: rest => some ('\\', rest)
  | '/' :: rest => some ('/', rest)
  | 'b' :: rest => some ('\x08', rest)
  | 'f' :: rest => some ('\x0c', rest)
  | 'n' :: rest => some ('\n', rest)
  | 'r' :: rest => some ('\r', rest)
  | 't' :: rest => some ('\t', rest)
  | 'u' :: rest => unicodeEscape? rest
  | _ => none

/-- Reads the characters of a string up to its closing quote. -/
def stringBody? : Nat → List Char → Option (List Char × List Char)
  | 0, _ => none
  | _ + 1, [] => none
  | fuel + 1, c :: rest =>
    if c = '"' then some ([], rest)
    else if c = '\\' then do
      let (c, rest) ← escape? rest
      let (body, rest) ← stringBody? fuel rest
      return (c :: body, rest)
    else if c.toNat < 0x20 then none
    else do
      let (body, rest) ← stringBody? fuel rest
      return (c :: body, rest)

/-- Reads a string after its opening quote. -/
def string? (cs : List Char) : Option (String × List Char) := do
  let (body, rest) ← stringBody? (cs.length + 1) cs
  return (String.ofList body, rest)

/-! ## Values -/

mutual

/-- Reads one value that may nest `depth` levels. -/
def value? : Nat → Nat → List Char → Option (Json × List Char)
  | 0, _, _ => none
  | fuel + 1, depth, cs =>
    match skipBlanks cs with
    | 'n' :: 'u' :: 'l' :: 'l' :: rest => some (null, rest)
    | 't' :: 'r' :: 'u' :: 'e' :: rest => some (bool true, rest)
    | 'f' :: 'a' :: 'l' :: 's' :: 'e' :: rest => some (bool false, rest)
    | '"' :: rest => (string? rest).map fun (s, rest) ↦ (string s, rest)
    | '-' :: rest => (unsigned? false rest).map fun (n, rest) ↦ (number n, rest)
    | '[' :: rest =>
      match depth with
      | 0 => none
      | depth + 1 =>
        match skipBlanks rest with
        | ']' :: rest => some (array [], rest)
        | rest => (items? fuel depth rest).map fun (items, rest) ↦ (array items, rest)
    | '\x7b' :: rest =>
      match depth with
      | 0 => none
      | depth + 1 =>
        match skipBlanks rest with
        | '\x7d' :: rest => some (object [], rest)
        | rest => (entries? fuel depth [] rest).map fun (entries, rest) ↦ (object entries, rest)
    | rest => (unsigned? true rest).map fun (n, rest) ↦ (number n, rest)

/-- Reads the items of an array that has at least one, with the closing bracket. -/
def items? : Nat → Nat → List Char → Option (List Json × List Char)
  | 0, _, _ => none
  | fuel + 1, depth, cs => do
    let (item, rest) ← value? fuel depth cs
    match skipBlanks rest with
    | ',' :: rest =>
      let (items, rest) ← items? fuel depth rest
      return (item :: items, rest)
    | ']' :: rest => return ([item], rest)
    | _ => none

/-- Reads the entries of an object that has at least one, with the closing brace, into the
entries before them. -/
def entries? : Nat → Nat → Object → List Char → Option (Object × List Char)
  | 0, _, _, _ => none
  | fuel + 1, depth, before, cs =>
    match skipBlanks cs with
    | '"' :: rest => do
      let (key, rest) ← string? rest
      match skipBlanks rest with
      | ':' :: rest =>
        let (value, rest) ← value? fuel depth rest
        let entries := Object.insert key value before
        match skipBlanks rest with
        | ',' :: rest => entries? fuel depth entries rest
        | '\x7d' :: rest => return (entries, rest)
        | _ => none
      | _ => none
    | _ => none

end

/-- Reads a whole text as one value. -/
def parse? (text : String) : Option Json := do
  let cs := text.toList
  let (value, rest) ← value? (cs.length + 1) maxDepth cs
  guard (skipBlanks rest).isEmpty
  return value

end NotebookTree.Json
