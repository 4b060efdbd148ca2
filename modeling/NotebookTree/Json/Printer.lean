import NotebookTree.Decimal.Format
import NotebookTree.Json.Basic

/-!
# JSON text

`Json.compact` writes a value on one line without blanks, `Json.pretty` with two spaces of
indentation for each level, where empty containers stay on one line. In strings only the quote,
the backslash and the characters below the space are escaped.
-/

namespace NotebookTree.Json

/-- Doubles are positional from `1e-5` up to below `1e16`. -/
def floatFormat : Decimal.FloatFormat := ⟨-5, 15, true⟩

/-- One lower-case hexadecimal digit. -/
def hexDigit (n : Nat) : Char :=
  if n < 10 then Char.ofNat ('0'.toNat + n) else Char.ofNat ('a'.toNat + (n - 10))

/-- One character inside a JSON string. -/
def escapedChar (c : Char) : List Char :=
  if c = '"' then ['\\', '"']
  else if c = '\\' then ['\\', '\\']
  else if c = '\x08' then ['\\', 'b']
  else if c = '\x0c' then ['\\', 'f']
  else if c = '\n' then ['\\', 'n']
  else if c = '\r' then ['\\', 'r']
  else if c = '\t' then ['\\', 't']
  else if c.toNat < 0x20 then
    ['\\', 'u', '0', '0', hexDigit (c.toNat / 16), hexDigit (c.toNat % 16)]
  else [c]

/-- A string with its quotes. -/
def stringChars (s : String) : List Char :=
  '"' :: s.toList.flatMap escapedChar ++ ['"']

/-- The text of a number. A double that is no number has no JSON text and is written as null. -/
def Number.chars : Number → List Char
  | .integer n => Decimal.intDigits n
  | .real x => if x.isFinite then Decimal.floatChars floatFormat x else ['n', 'u', 'l', 'l']

mutual

/-- The compact text of a value. -/
def compactChars : Json → List Char
  | null => ['n', 'u', 'l', 'l']
  | bool true => ['t', 'r', 'u', 'e']
  | bool false => ['f', 'a', 'l', 's', 'e']
  | number n => n.chars
  | string s => stringChars s
  | array items => '[' :: compactItems items ++ [']']
  | object entries => '\x7b' :: compactEntries entries ++ ['\x7d']

/-- The items of an array, separated by commas. -/
def compactItems : List Json → List Char
  | [] => []
  | [item] => compactChars item
  | item :: rest => compactChars item ++ ',' :: compactItems rest

/-- The entries of an object, separated by commas. -/
def compactEntries : List (String × Json) → List Char
  | [] => []
  | [(key, value)] => stringChars key ++ ':' :: compactChars value
  | (key, value) :: rest =>
    stringChars key ++ ':' :: compactChars value ++ ',' :: compactEntries rest

end

/-- A line break and the indentation of the given level. -/
def newLine (level : Nat) : List Char :=
  '\n' :: List.replicate (2 * level) ' '

mutual

/-- The indented text of a value that stands at the given level. -/
def prettyChars (level : Nat) : Json → List Char
  | array [] => ['[', ']']
  | object [] => ['\x7b', '\x7d']
  | array (item :: rest) =>
    '[' :: prettyItems (level + 1) (item :: rest) ++ newLine level ++ [']']
  | object (entry :: rest) =>
    '\x7b' :: prettyEntries (level + 1) (entry :: rest) ++ newLine level ++ ['\x7d']
  | null => ['n', 'u', 'l', 'l']
  | bool true => ['t', 'r', 'u', 'e']
  | bool false => ['f', 'a', 'l', 's', 'e']
  | number n => n.chars
  | string s => stringChars s

/-- The items of an array, each on its own line. -/
def prettyItems (level : Nat) : List Json → List Char
  | [] => []
  | [item] => newLine level ++ prettyChars level item
  | item :: rest => newLine level ++ prettyChars level item ++ ',' :: prettyItems level rest

/-- The entries of an object, each on its own line. -/
def prettyEntries (level : Nat) : List (String × Json) → List Char
  | [] => []
  | [(key, value)] => newLine level ++ stringChars key ++ ':' :: ' ' :: prettyChars level value
  | (key, value) :: rest =>
    newLine level ++ stringChars key ++ ':' :: ' ' :: prettyChars level value ++
      ',' :: prettyEntries level rest

end

/-- The text of a value on one line. -/
def compact (value : Json) : String :=
  String.ofList (compactChars value)

/-- The text of a value over indented lines. -/
def pretty (value : Json) : String :=
  String.ofList (prettyChars 0 value)

end NotebookTree.Json
