import Std.Data.HashMap
import NotebookTree.Html.EntityTable
import NotebookTree.Text.Punctuation

/-!
# Character references

A character reference stands for one or two characters by name or by number. `Entity.named?` looks
a name up, and `Entity.unterminated?` does so for the few names that need no semicolon.
`Entity.numbered` gives the character of a number: numbers that are no characters become the
replacement character, and numbers from 128 to 159 are read in the Windows code page 1252.
-/

namespace NotebookTree.Html.Entity

/-- The names that markup itself needs, with their characters. -/
def basic : List (String × List Char) :=
  [("amp", ['&']), ("lt", ['<']), ("gt", ['>']), ("quot", ['"'])]

/-- The code points of a table entry. -/
def codePoints (entry : String) : List Char :=
  (entry.splitOn "+").map fun code ↦ Char.ofNat (Text.ofDigits 16 code.toList)

/-- Reads names and code points in turn into a map. -/
def tableOf : List String → Std.HashMap String (List Char)
  | name :: codes :: rest => (tableOf rest).insert name (codePoints codes)
  | _ => ∅

/-- All names with their characters. -/
def table : Std.HashMap String (List Char) :=
  tableOf (Text.tableWords EntityTable.characters)

/-- The names that are known without a semicolon. -/
def unterminatedNames : List String :=
  Text.tableWords EntityTable.unterminated

/-- The characters of a name that a semicolon follows. -/
def named? (name : String) : Option (List Char) :=
  basic.lookup name <|> table[name]?

/-- The characters of a name that no semicolon follows. -/
def unterminated? (name : String) : Option (List Char) :=
  if name ∈ unterminatedNames then named? name else none

/-- The characters of the code page 1252 from 128 to 159. Zero marks a gap. -/
def codePage : List Nat :=
  [0x20ac, 0, 0x201a, 0x0192, 0x201e, 0x2026, 0x2020, 0x2021, 0x02c6, 0x2030, 0x0160, 0x2039,
    0x0152, 0, 0x017d, 0, 0, 0x2018, 0x2019, 0x201c, 0x201d, 0x2022, 0x2013, 0x2014, 0x02dc,
    0x2122, 0x0161, 0x203a, 0x0153, 0, 0x017e, 0x0178]

/-- Stands for what is no character. -/
def replacement : Char := Char.ofNat 0xfffd

/-- The character of a number in HTML. -/
def numbered (n : Nat) : Char :=
  if n = 0 ∨ 0x10ffff < n ∨ (0xd800 ≤ n ∧ n ≤ 0xdfff) then replacement
  else if 0x80 ≤ n ∧ n ≤ 0x9f then
    match codePage[n - 0x80]? with
    | some 0 => Char.ofNat n
    | some code => Char.ofNat code
    | none => Char.ofNat n
  else Char.ofNat n

end NotebookTree.Html.Entity
