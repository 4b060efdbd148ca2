import NotebookTree.Text.Blank

/-!
# Positions in a YAML text

A `Cursor` is the rest of a YAML text with the place where it starts. Lines and columns count from
zero. YAML knows five line breaks, of which a carriage return with a line feed after it is one.
-/

namespace NotebookTree.Yaml

/-- Space and tab. -/
def isBlank (c : Char) : Bool := Text.isIndent c

/-- The characters that end a line. -/
def isBreak (c : Char) : Bool :=
  c == '\n' || c == '\r' || c == '\u0085' || c == '\u2028' || c == '\u2029'

/-- The characters of the names of anchors, directives and tag handles. -/
def isNameChar (c : Char) : Bool :=
  Text.isAsciiAlphanum c || c == '_' || c == '-'

/-- The characters that a YAML text may hold. -/
def isAllowed (c : Char) : Bool :=
  let n := c.toNat
  n == 0x09 || n == 0x0a || n == 0x0d || (0x20 ≤ n && n ≤ 0x7e) || n == 0x85 ||
    (0xa0 ≤ n && n ≤ 0xfffd) || 0x10000 ≤ n

/-- The rest of a text, and where it starts. -/
structure Cursor where
  rest : List Char
  index : Nat
  line : Nat
  column : Nat
  deriving Inhabited

namespace Cursor

/-- The start of a text. -/
def ofText (text : List Char) : Cursor := ⟨text, 0, 0, 0⟩

/-- Goes on by characters none of which ends a line. -/
def skip (c : Cursor) (n : Nat) : Cursor :=
  ⟨c.rest.drop n, c.index + n, c.line, c.column + n⟩

/-- The character at a distance. -/
def peek? (c : Cursor) (n : Nat) : Option Char := c.rest[n]?

/-- Does the given character stand at a distance? -/
def has (c : Cursor) (n : Nat) (char : Char) : Bool :=
  c.rest[n]? == some char

/-- Does a character with the property stand at a distance? -/
def any (c : Cursor) (n : Nat) (p : Char → Bool) : Bool :=
  (c.rest[n]?.map p).getD false

/-- Is a blank, a line break or the end of the text at a distance? -/
def atGap (c : Cursor) (n : Nat) : Bool :=
  match c.rest[n]? with
  | none => true
  | some char => isBlank char || isBreak char

/-- Is the end of a line or of the text here? -/
def atLineEnd (c : Cursor) : Bool :=
  match c.rest with
  | [] => true
  | char :: _ => isBreak char

/-- Takes characters with a property that no line break has. -/
def takeWhile (c : Cursor) (p : Char → Bool) : List Char × Cursor :=
  let chars := c.rest.takeWhile p
  (chars, c.skip chars.length)

/-- Skips characters with a property that no line break has. -/
def skipWhile (c : Cursor) (p : Char → Bool) : Cursor := (c.takeWhile p).2

/-- Takes a line break, if there is one: the character that it stands for. -/
def takeBreak (c : Cursor) : List Char × Cursor :=
  match c.rest with
  | '\r' :: '\n' :: rest => (['\n'], ⟨rest, c.index + 2, c.line + 1, 0⟩)
  | char :: rest =>
    if isBreak char then
      ([if char = '\u2028' ∨ char = '\u2029' then char else '\n'],
        ⟨rest, c.index + 1, c.line + 1, 0⟩)
    else ([], c)
  | [] => ([], c)

/-- Skips a comment up to the end of its line. -/
def skipComment (c : Cursor) : Cursor :=
  if c.has 0 '#' then c.skipWhile (!isBreak ·) else c

/-- Skips blanks, a comment and the line break after them. Nothing if something else stands
there. -/
def endLine? (c : Cursor) : Option Cursor :=
  let c := (c.skipWhile isBlank).skipComment
  if c.atLineEnd then some c.takeBreak.2 else none

/-- Does a line of three equal marks stand here? -/
def atMarker (c : Cursor) (mark : Char) : Bool :=
  c.column == 0 && c.has 0 mark && c.has 1 mark && c.has 2 mark && c.atGap 3

/-- Does a mark of the start or the end of a document stand here? -/
def atDocumentMarker (c : Cursor) : Bool :=
  c.atMarker '-' || c.atMarker '.'

end Cursor

end NotebookTree.Yaml
