/-!
# Blank characters

Three sets of blank characters are in use. `isBlank` is the Unicode property `White_Space`, which
splits words and decides how emphasis marks flank a word. `isAsciiBlank` is the set that HTML and
Markdown know: tab, line feed, form feed, carriage return and space. `isIndent` holds the two
characters that indent a line.
-/

namespace NotebookTree.Text

/-- The characters with the Unicode property `White_Space`. -/
def isBlank (c : Char) : Bool :=
  let n := c.toNat
  (9 ≤ n && n ≤ 13) || n == 0x20 || n == 0x85 || n == 0xa0 || n == 0x1680 ||
    (0x2000 ≤ n && n ≤ 0x200a) || n == 0x2028 || n == 0x2029 || n == 0x202f || n == 0x205f ||
    n == 0x3000

/-- Tab, line feed, form feed, carriage return and space. -/
def isAsciiBlank (c : Char) : Bool :=
  c == ' ' || c == '\t' || c == '\n' || c == '\r' || c == '\x0c'

/-- Space and tab. -/
def isIndent (c : Char) : Bool :=
  c == ' ' || c == '\t'

/-- Line feed and carriage return. -/
def isLineEnd (c : Char) : Bool :=
  c == '\n' || c == '\r'

/-- The lower-case form of an ASCII letter; every other character stays. -/
def lowerAscii (c : Char) : Char :=
  if 'A' ≤ c ∧ c ≤ 'Z' then Char.ofNat (c.toNat + 32) else c

/-- A text with its ASCII letters in lower case. -/
def lowerAsciiString (s : String) : String :=
  String.ofList (s.toList.map lowerAscii)

/-- The value of a digit in the given base, at most sixteen. -/
def digitValue? (base : Nat) (c : Char) : Option Nat :=
  let value :=
    if '0' ≤ c ∧ c ≤ '9' then some (c.toNat - '0'.toNat)
    else if 'a' ≤ c ∧ c ≤ 'f' then some (c.toNat - 'a'.toNat + 10)
    else if 'A' ≤ c ∧ c ≤ 'F' then some (c.toNat - 'A'.toNat + 10)
    else none
  value.filter (· < base)

/-- The number that a list of digits writes in the given base. Other characters count as zero. -/
def ofDigits (base : Nat) (digits : List Char) : Nat :=
  digits.foldl (fun n c ↦ n * base + (digitValue? base c).getD 0) 0

/-- ASCII letters and digits. -/
def isAsciiAlphanum (c : Char) : Bool :=
  c.isAlpha || c.isDigit

/-- ASCII characters that are neither letters, digits, blanks nor controls. -/
def isAsciiPunctuation (c : Char) : Bool :=
  let n := c.toNat
  (33 ≤ n && n ≤ 47) || (58 ≤ n && n ≤ 64) || (91 ≤ n && n ≤ 96) || (123 ≤ n && n ≤ 126)

/-- The rest of a list after a given beginning, or nothing if it starts otherwise. -/
def dropStart? : List Char → List Char → Option (List Char)
  | [], rest => some rest
  | _ :: _, [] => none
  | p :: start, c :: rest => if p = c then dropStart? start rest else none

/-- The rest of a list after a beginning that is compared without regard to ASCII case. The
beginning is given in lower case. -/
def dropStartAnyCase? : List Char → List Char → Option (List Char)
  | [], rest => some rest
  | _ :: _, [] => none
  | p :: start, c :: rest => if p = lowerAscii c then dropStartAnyCase? start rest else none

/-- Does the text start with the given one? -/
def startsWith (start text : List Char) : Bool :=
  (dropStart? start text).isSome

end NotebookTree.Text
