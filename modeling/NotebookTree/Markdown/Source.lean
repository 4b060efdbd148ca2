import NotebookTree.Text.Blank

/-!
# Positions in a Markdown text

The reader of Markdown works with positions in the characters of the text. This module has the
scans that all of it shares. A scan takes a position and gives the position after what it has
found.
-/

namespace NotebookTree.Markdown

/-- The characters of a text. -/
abbrev Source := Array Char

/-- What stands between two positions of a text. -/
structure Placed (α : Type) where
  start : Nat
  stop : Nat
  body : α
  deriving DecidableEq, Inhabited

namespace Source

/-- Does the character stand at the position? -/
def has (s : Source) (i : Nat) (c : Char) : Bool :=
  s[i]? == some c

/-- Does the text go on with the given characters? -/
def hasAll (s : Source) (i : Nat) : List Char → Bool
  | [] => true
  | c :: rest => s.has i c && hasAll s (i + 1) rest

/-- Does the text go on with the given lower-case characters, in any case? -/
def hasAllAnyCase (s : Source) (i : Nat) : List Char → Bool
  | [] => true
  | c :: rest => (s[i]?.map Text.lowerAscii) == some c && hasAllAnyCase s (i + 1) rest

/-- Skips at most `limit` characters with the property. -/
def skipUpTo (s : Source) (p : Char → Bool) : Nat → Nat → Nat
  | 0, i => i
  | limit + 1, i =>
    match s[i]? with
    | some c => if p c then skipUpTo s p limit (i + 1) else i
    | none => i

/-- Skips characters with the property. -/
def skip (s : Source) (p : Char → Bool) (i : Nat) : Nat :=
  skipUpTo s p (s.size - i) i

/-- Goes back over characters with the property, but not below `low`. -/
def skipBack (s : Source) (p : Char → Bool) (low : Nat) : Nat → Nat
  | 0 => 0
  | i + 1 =>
    if i < low then i + 1
    else
      match s[i]? with
      | some c => if p c then skipBack s p low i else i + 1
      | none => i + 1

/-- The text between two positions. -/
def slice (s : Source) (i j : Nat) : String :=
  String.ofList (s.extract i j).toList

/-- The characters that may stand between words of a line. -/
def isSpace (c : Char) : Bool :=
  c == ' ' || c == '\t' || c == '\x0b' || c == '\x0c'

/-- The characters of `isSpace` and the line ends. -/
def isSpaceOrEnd (c : Char) : Bool :=
  isSpace c || c == '\n' || c == '\r'

/-- Skips the spaces of a line. -/
def skipSpace (s : Source) (i : Nat) : Nat := s.skip isSpace i

/-- Skips a line end, or nothing at the end of the text. -/
def lineEnd? (s : Source) (i : Nat) : Option Nat :=
  match s[i]? with
  | none => some i
  | some '\n' => some (i + 1)
  | some '\r' => some (if s.has (i + 1) '\n' then i + 2 else i + 1)
  | some _ => none

/-- Skips the rest of a line that is blank from here on. -/
def blankLine? (s : Source) (i : Nat) : Option Nat :=
  s.lineEnd? (s.skipSpace i)

/-- The position after the next line feed. -/
def nextLine (s : Source) (i : Nat) : Nat :=
  let j := s.skip (· != '\n') i
  if j < s.size then j + 1 else s.size

/-- Skips a character if it is the given one. -/
def skipChar (s : Source) (i : Nat) (c : Char) : Nat :=
  if s.has i c then i + 1 else i

/-- Skips all occurrences of a character. -/
def skipRun (s : Source) (i : Nat) (c : Char) : Nat :=
  s.skip (· == c) i

/-- Skips white space and at most one line end, after which `afterEnd` skips what stands at the
start of a line. -/
def skipSeparator (s : Source) (afterEnd : Nat → Nat) (i : Nat) : Nat :=
  let i := s.skipSpace i
  match s[i]?, s.lineEnd? i with
  | some _, some j => s.skipSpace (afterEnd j)
  | _, _ => i

end Source

end NotebookTree.Markdown
