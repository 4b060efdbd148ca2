import NotebookTree.Markdown.Event
import NotebookTree.Markdown.Item
import NotebookTree.Markdown.RawMarkup

/-!
# What a line starts

Tests of a line for the marks that start a block: thematic breaks, headings, fences, quotes, list
items, raw markup and the rows of dashes under the head of a table. `Source.interrupts` says
whether a line ends a paragraph before it.
-/

namespace NotebookTree.Markdown

namespace Source

/-- Reads a thematic break: three or more equal marks with spaces between them. -/
def thematicBreak? (s : Source) (i : Nat) : Option Nat :=
  match s[i]? with
  | none => none
  | some c =>
    if c = '*' ∨ c = '-' ∨ c = '_' then
      let inRule (d : Char) : Bool := d == c || Text.isIndent d
      let last := s.skip inRule i
      let marks := ((s.extract i last).toList.filter (· == c)).length
      if marks < 3 then none else s.lineEnd? last
    else none

/-- The level of a heading that starts with number signs. -/
def headingLevel? (s : Source) (i : Nat) : Option Nat :=
  let last := s.skipRun i '#'
  let level := last - i
  let spaced := match s[last]? with
    | none => true
    | some c => isSpaceOrEnd c
  if 1 ≤ level && level ≤ 6 && spaced then some level else none

/-- Reads the line under the text of a heading: its level and the position after the line. -/
def underline? (s : Source) (i : Nat) : Option (Nat × Nat) :=
  match s[i]? with
  | some '=' => (s.blankLine? (s.skipRun i '=')).map ((1, ·))
  | some '-' => (s.blankLine? (s.skipRun i '-')).map ((2, ·))
  | _ => none

/-- Reads an opening fence: its character and the position after it. No backtick may stand after
backticks on the line. -/
def fence? (s : Source) (i : Nat) : Option (Char × Nat) :=
  match s[i]? with
  | none => none
  | some c =>
    if c = '\x60' ∨ c = '~' then
      let last := s.skipRun i c
      if last < i + 3 then none
      else if c = '\x60' && (s.extract last (s.nextLine last)).toList.contains '\x60' then none
      else some (c, last)
    else none

/-- Reads a closing fence of at least `count` characters: the position after it and the spaces
behind it. At the end of the text it is there in any case. -/
def closingFence? (s : Source) (c : Char) (count i : Nat) : Option Nat :=
  if s.size ≤ i then some i
  else
    let last := s.skipRun i c
    if last < i + count then none
    else
      let j := s.skipRun last ' '
      if (s.lineEnd? j).isSome then some j else none

/-- Reads a decimal number of at most `limit` digits. -/
def number (s : Source) (limit i : Nat) : Nat × Nat :=
  let last := s.skipUpTo Char.isDigit limit i
  (Text.ofDigits 10 (s.extract i last).toList, last)

/-- The mark of a list item: a bullet, or a number with its delimiter. -/
structure ListMark where
  delimiter : Char
  start : Nat
  deriving DecidableEq, Inhabited

/-- Is the delimiter that of a bullet list? -/
def isBullet (c : Char) : Bool :=
  c == '-' || c == '+' || c == '*'

/-- Reads the mark of a list item without the white space after it. -/
def listMark? (s : Source) (i : Nat) : Option (ListMark × Nat) :=
  match s[i]? with
  | none => none
  | some c =>
    if isBullet c then some (⟨c, 0⟩, i + 1)
    else if c.isDigit then
      let (start, last) := s.number 9 i
      match s[last]? with
      | some d => if d = '.' ∨ d = ')' then some (⟨d, start⟩, last + 1) else none
      | none => none
    else none

/-- Does a list item start here that may end a paragraph or table before it? Inside the containers
of a paragraph an item that is empty or does not start with one may not. -/
def itemInterrupts (s : Source) (contained inTable : Bool) (i : Nat) : Bool :=
  match s.listMark? i with
  | none => false
  | some (mark, j) =>
    let spaced := match s[j]? with
      | none => true
      | some c => Text.isIndent c || Text.isLineEnd c
    let counts := isBullet mark.delimiter || mark.start == 1
    spaced && (!contained || inTable || (counts && (s.blankLine? j).isNone))

/-- Does the line end a paragraph, without regard to tables? -/
def interruptsPlain (s : Source) (extensions : Extensions) (contained inTable : Bool) (i : Nat) :
    Bool :=
  (s.lineEnd? i).isSome || (s.thematicBreak? i).isSome || (s.headingLevel? i).isSome ||
    (s.fence? i).isSome || s.has i '>' || s.itemInterrupts contained inTable i ||
    (s.has i '<' && ((s.htmlBlockEnd? (i + 1)).isSome || s.startsBlockTag (i + 1))) ||
    (extensions.footnotes && s.hasAll i ['[', '^'] &&
      match s.label? (fun _ ↦ none) inTable (i + 2) with
      | some (_, j) => s.has j ':'
      | none => false)

/-! ## Tables -/

/-- The state of reading the row of dashes under the head of a table. -/
structure DashRow where
  /-- The columns so far, the last one first. -/
  columns : List Alignment
  active : Alignment
  columnStart : Bool
  bar : Bool
  hyphen : Bool
  columnHyphen : Bool

/-- Reads the row of dashes under the head of a table: the alignments of its columns and the
position after it. A column that a bar ends needs a dash. -/
def dashRowFrom (s : Source) : Nat → DashRow → Nat → Option (List Alignment × Nat)
  | 0, _, _ => none
  | fuel + 1, r, i =>
    let done (next : Nat) : Option (List Alignment × Nat) :=
      let columns := if r.columnStart then r.columns else r.active :: r.columns
      if r.bar && r.hyphen then some (columns.reverse, next) else none
    match s[i]? with
    | none => done i
    | some c =>
      if Text.isLineEnd c then done ((s.lineEnd? i).getD i)
      else if c = ' ' then dashRowFrom s fuel r (i + 1)
      else if c = ':' then
        let active : Alignment := match r.columnStart, r.active with
          | true, .unspecified => .left
          | false, .left => .center
          | false, .unspecified => .right
          | _, a => a
        dashRowFrom s fuel { r with columnStart := false, active } (i + 1)
      else if c = '-' then
        dashRowFrom s fuel
          { r with columnStart := false, hyphen := true, columnHyphen := true } (i + 1)
      else if c = '|' then
        if !r.columnHyphen then none
        else
          dashRowFrom s fuel
            { r with
              columns := r.active :: r.columns
              active := .unspecified
              columnStart := true
              bar := true
              columnHyphen := false } (i + 1)
      else none

/-- Reads the row of dashes under the head of a table, which is indented by at most three
columns. -/
def dashRow? (s : Source) (i : Nat) : Option (List Alignment × Nat) :=
  let first := s.skip Text.isIndent i
  let (columns, _) := (LineStart.ofPosition i).takeUpTo s 4
  if 3 < columns || s.size ≤ first then none
  else
    let bar := s.has first '|'
    s.dashRowFrom (s.size - i + 2) ⟨[], .unspecified, true, bar, false, false⟩
      (if bar then first + 1 else first)

/-- The number of columns in the head of a table, from the bars in it. -/
def headColumns (s : Source) (bars start lastBar : Nat) : Nat :=
  let bars := if s.has (s.skipSpace start) '|' then bars - 1 else bars
  if (s.blankLine? (lastBar + 1)).isSome then bars else bars + 1

/-- Counts the bars of a line that no backslash precedes: their number, the last one, and the
position after the line, if it ends. -/
def barsOfLine (s : Source) : Nat → Bool → Nat → Nat → Nat → Option (Nat × Nat × Nat)
  | 0, _, _, _, _ => none
  | fuel + 1, escaped, bars, last, i =>
    match s[i]? with
    | none => none
    | some c =>
      if Text.isLineEnd c then some (bars, last, (s.lineEnd? i).getD i)
      else if c = '\\' then barsOfLine s fuel true bars last (i + 1)
      else if c = '|' ∧ !escaped then barsOfLine s fuel false (bars + 1) i (i + 1)
      else barsOfLine s fuel false bars last (i + 1)

/-- Reads the second line of a table whose head has so many columns: the alignments and the position
after it. -/
def secondRow? (s : Source) (containers : List Container) (columns i : Nat) :
    Option (List Alignment × Nat) := do
  let l ← Container.enterAll? s containers i
  let (alignments, next) ← s.dashRow? l.position
  guard (alignments.length == columns)
  return (alignments, next)

/-- Does a table start here with a bar? -/
def startsTable (s : Source) (containers : List Container) (i : Nat) : Bool :=
  s.has i '|' &&
    match s.barsOfLine (s.size - i + 1) false 0 i i with
    | none => false
    | some (bars, lastBar, next) =>
      (s.secondRow? containers (s.headColumns bars i lastBar) next).isSome

/-- Does the line end a paragraph? The paragraph stands in the given containers, and `contained`
says whether the line does. -/
def interrupts (s : Source) (extensions : Extensions) (containers : List Container)
    (contained : Bool) (i : Nat) : Bool :=
  s.interruptsPlain extensions contained false i ||
    (extensions.tables && s.startsTable containers i)

end Source

end NotebookTree.Markdown
