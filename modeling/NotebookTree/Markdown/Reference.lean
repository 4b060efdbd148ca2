import NotebookTree.Html.Entity
import NotebookTree.Markdown.Container
import NotebookTree.Text.CaseFold

/-!
# Escapes, labels and destinations

The parts of links that need no knowledge of the blocks around them: character references and
backslash escapes, the labels by which links and footnotes are defined and referred to, and link
destinations. Labels are compared after case folding.
-/

namespace NotebookTree.Markdown

namespace Source

/-- Reads a character reference at an ampersand: the text it stands for and the position after
it. -/
def entity? (s : Source) (i : Nat) : Option (String × Nat) :=
  if s.has (i + 1) '#' then
    let hexadecimal := s.has (i + 2) 'x' || s.has (i + 2) 'X'
    let base := if hexadecimal then 16 else 10
    let first := if hexadecimal then i + 3 else i + 2
    let isDigit (c : Char) : Bool := (Text.digitValue? base c).isSome
    let last := s.skipUpTo isDigit (if hexadecimal then 6 else 7) first
    if first = last || !s.has last ';' then none
    else
      let n := Text.ofDigits base (s.extract first last).toList
      let valid := n ≠ 0 ∧ n ≤ 0x10ffff ∧ !(0xd800 ≤ n ∧ n ≤ 0xdfff)
      some (String.singleton (if valid then Char.ofNat n else Html.Entity.replacement), last + 1)
  else
    let last := s.skip Text.isAsciiAlphanum (i + 1)
    if s.has last ';' then
      (Html.Entity.named? (s.slice (i + 1) last)).map fun chars ↦ (String.ofList chars, last + 1)
    else none

/-- Is the character at the position an ASCII punctuation character? -/
def hasPunctuation (s : Source) (i : Nat) : Bool :=
  match s[i]? with
  | some c => Text.isAsciiPunctuation c
  | none => false

/-- The text from `i` to `stop` without its escapes, character references and carriage returns. In
a table, two backslashes before a bar count as one. -/
def unescapeFrom (s : Source) (inTable : Bool) (stop : Nat) : Nat → Nat → List Char
  | 0, _ => []
  | fuel + 1, i =>
    if stop ≤ i then []
    else
      match s[i]? with
      | none => []
      | some '\\' =>
        if inTable && s.hasAll i ['\\', '\\', '|'] && i + 2 < stop then
          '|' :: unescapeFrom s inTable stop fuel (i + 3)
        else if i + 1 < stop && s.hasPunctuation (i + 1) then
          s[i + 1]?.toList ++ unescapeFrom s inTable stop fuel (i + 2)
        else '\\' :: unescapeFrom s inTable stop fuel (i + 1)
      | some '&' =>
        match s.entity? i with
        | some (text, j) =>
          if j ≤ stop then text.toList ++ unescapeFrom s inTable stop fuel j
          else '&' :: unescapeFrom s inTable stop fuel (i + 1)
        | none => '&' :: unescapeFrom s inTable stop fuel (i + 1)
      | some '\r' => unescapeFrom s inTable stop fuel (i + 1)
      | some c => c :: unescapeFrom s inTable stop fuel (i + 1)

/-- The text between two positions without its escapes. -/
def unescape (s : Source) (inTable : Bool) (i stop : Nat) : String :=
  String.ofList (unescapeFrom s inTable stop (stop - i + 1) i)

/-! ## Labels -/

/-- Skips white space inside a label with at most one line end. Gives the position after it and
whether it is more than one space. -/
def labelSpace? (s : Source) (afterEnd : Nat → Option Nat) :
    Nat → Nat → Bool → Bool → Option (Nat × Bool)
  | 0, i, _, wide => some (i, wide)
  | fuel + 1, i, ended, wide =>
    match s[i]? with
    | none => some (i, wide)
    | some c =>
      if Text.isLineEnd c then
        if ended then none
        else
          match s.lineEnd? i with
          | some j => (afterEnd j).bind fun j ↦ labelSpace? s afterEnd fuel j true true
          | none => none
      else if isSpace c then labelSpace? s afterEnd fuel (i + 1) ended (wide || c != ' ')
      else some (i, wide)

/-- The length at which a label is too long. -/
def labelLimit : Nat := 1000

/-- What a character counts for the length of a label: only the octets of those outside ASCII
count, besides white space and escapes. -/
def labelWidth (c : Char) : Nat :=
  if c.toNat < 128 then 0 else c.utf8Size

/-- Reads a label from after its opening bracket: its characters, and the position after its closing
bracket. White space is collapsed. In a table a backslash before a bar is left out. -/
def labelBody? (s : Source) (afterEnd : Nat → Option Nat) (inTable : Bool) :
    Nat → Nat → Nat → Bool → List Char → Option (List Char × Nat)
  | 0, _, _, _, _ => none
  | fuel + 1, i, count, blank, before =>
    if labelLimit ≤ count then none
    else
      match s[i]? with
      | none | some '[' => none
      | some ']' => if blank then none else some (before.reverse, i + 1)
      | some '\\' =>
        if inTable && s.has (i + 1) '|' then
          labelBody? s afterEnd inTable fuel (i + 2) (count + 1) false ('|' :: before)
        else if inTable && s.hasAll i ['\\', '\\', '|'] then
          labelBody? s afterEnd inTable fuel (i + 3) (count + 2) false ('|' :: '\\' :: before)
        else if s.hasPunctuation (i + 1) then
          labelBody? s afterEnd inTable fuel (i + 2) (count + 2) false
            (s[i + 1]?.toList ++ '\\' :: before)
        else labelBody? s afterEnd inTable fuel (i + 1) count false ('\\' :: before)
      | some c =>
        if isSpaceOrEnd c then
          match labelSpace? s afterEnd (s.size - i + 1) i false false with
          | none => none
          | some (j, wide) =>
            if wide || i + 1 < j then
              labelBody? s afterEnd inTable fuel j (count + (j - i)) blank (' ' :: before)
            else labelBody? s afterEnd inTable fuel j (count + 1) blank (c :: before)
        else labelBody? s afterEnd inTable fuel (i + 1) (count + labelWidth c) false (c :: before)

/-- Reads a label from after its opening bracket: its text without white space around it, and the
position after its closing bracket. -/
def label? (s : Source) (afterEnd : Nat → Option Nat) (inTable : Bool) (i : Nat) :
    Option (String × Nat) := do
  let (chars, j) ← labelBody? s afterEnd inTable (s.size - i + 1) i 0 true []
  let trimStart (cs : List Char) : List Char := cs.dropWhile Text.isAsciiBlank
  return (String.ofList (trimStart (trimStart chars).reverse).reverse, j)

/-! ## Destinations -/

/-- Reads a destination in angle brackets, from after the opening one, up to the closing one. -/
def pointyDestination? (s : Source) : Nat → Nat → Option Nat
  | 0, _ => none
  | fuel + 1, i =>
    match s[i]? with
    | none | some '\n' | some '\r' | some '<' => none
    | some '>' => some i
    | some '\\' =>
      if s.hasPunctuation (i + 1) then pointyDestination? s fuel (i + 2)
      else pointyDestination? s fuel (i + 1)
    | some _ => pointyDestination? s fuel (i + 1)

/-- The greatest depth of parentheses in a destination. -/
def maxParentheses : Nat := 32

/-- Reads a destination without angle brackets, inside so many parentheses of its own. -/
def plainDestination? (s : Source) : Nat → Nat → Nat → Option Nat
  | 0, _, _ => none
  | fuel + 1, i, nest =>
    let done : Option Nat := if nest = 0 then some i else none
    match s[i]? with
    | none => done
    | some '(' =>
      if maxParentheses < nest then none else plainDestination? s fuel (i + 1) (nest + 1)
    | some ')' => if nest = 0 then done else plainDestination? s fuel (i + 1) (nest - 1)
    | some '\\' =>
      if s.hasPunctuation (i + 1) then plainDestination? s fuel (i + 2) nest
      else plainDestination? s fuel (i + 1) nest
    | some c =>
      if c.toNat ≤ 0x20 then done else plainDestination? s fuel (i + 1) nest

/-- Reads a link destination: where its text starts and ends, and the position after it. -/
def destination? (s : Source) (i : Nat) : Option (Nat × Nat × Nat) :=
  let fuel := s.size - i + 1
  if s.has i '<' then (pointyDestination? s fuel (i + 1)).map fun j ↦ (i + 1, j, j + 1)
  else (plainDestination? s fuel i 0).map fun j ↦ (i, j, j)

end Source

/-- What a label is defined as. -/
structure LinkDefinition where
  destination : String
  title : String
  deriving Inhabited

/-- The number of octets in a definition. -/
def LinkDefinition.size (d : LinkDefinition) : Nat :=
  d.destination.utf8ByteSize + d.title.utf8ByteSize

/-- The definitions of a text, by folded labels. -/
structure Definitions where
  links : List (String × LinkDefinition)
  footnotes : List String
  deriving Inhabited

namespace Definitions

/-- Defines a link unless its label is already defined. -/
def addLink (d : Definitions) (label : String) (definition : LinkDefinition) : Definitions :=
  let key := Text.foldCase label
  if d.links.any (·.1 == key) then d else { d with links := d.links ++ [(key, definition)] }

/-- The definition of a link. -/
def link? (d : Definitions) (label : String) : Option LinkDefinition :=
  d.links.lookup (Text.foldCase label)

/-- Defines a footnote. -/
def addFootnote (d : Definitions) (label : String) : Definitions :=
  { d with footnotes := Text.foldCase label :: d.footnotes }

/-- Is the footnote defined? -/
def hasFootnote (d : Definitions) (label : String) : Bool :=
  d.footnotes.contains (Text.foldCase label)

end Definitions

end NotebookTree.Markdown
