import NotebookTree.Markdown.Item
import NotebookTree.Markdown.RawMarkup

/-!
# Links in a running text

Scans for what makes a link: an address in angle brackets, a destination with an optional title in
parentheses, and a label in brackets. They work on the source up to the end of the block that holds
the text. A line end inside is followed by the marks of the containers around the block.
-/

namespace NotebookTree.Markdown

/-- Where a running text stands. -/
structure TextPlace where
  /-- The source up to the end of the block. -/
  source : Source
  containers : List Container
  inTable : Bool
  extensions : Extensions
  definitions : Definitions

namespace TextPlace

/-- Skips container marks at the start of a line. -/
def skipMarks (p : TextPlace) (i : Nat) : Nat :=
  Container.skipMarks p.source p.containers i

/-! ## Addresses in angle brackets -/

/-- Reads an absolute address up to a greater-than sign: its end. -/
def address? (s : Source) (i : Nat) : Option Nat := do
  let first ← s[i]?
  guard first.isAlpha
  let inScheme (c : Char) : Bool :=
    Text.isAsciiAlphanum c || c == '.' || c == '-' || c == '+'
  let colon := s.skip inScheme (i + 1)
  guard (s.has colon ':' && 2 ≤ colon - i && colon - i ≤ 32)
  let last := s.skip (fun c ↦ ' ' < c && c != '<' && c != '>') (colon + 1)
  guard (s.has last '>')
  return last

/-- The characters before the at sign of a mail address. -/
def inMailName (c : Char) : Bool :=
  Text.isAsciiAlphanum c || ".!#$%&'*+/=?^_\x60\x7b|\x7d~-".contains c

/-- Reads the labels of a mail domain, with dots between them: its end. -/
def domain? (s : Source) : Nat → Nat → Option Nat
  | 0, _ => none
  | fuel + 1, i =>
    let last := s.skip (fun c ↦ Text.isAsciiAlphanum c || c == '-') i
    if last = i ∨ 63 < last - i ∨ s.has i '-' ∨ s.has (last - 1) '-' then none
    else if s.has last '.' then domain? s fuel (last + 1)
    else some last

/-- Reads a mail address up to a greater-than sign: its end. -/
def mailAddress? (s : Source) (i : Nat) : Option Nat := do
  let sign := s.skip inMailName i
  guard (i < sign && s.has sign '@')
  let last ← domain? s (s.size + 1) (sign + 1)
  guard (s.has last '>')
  return last

/-- Reads an address of any kind up to a greater-than sign: its end. -/
def anyAddress? (s : Source) (i : Nat) : Option Nat :=
  (address? s i).or (mailAddress? s i)

/-! ## Destinations in parentheses -/

/-- The place where the text goes on after a line end, if an item stands there. -/
def itemAfter? (items : List Item) (i : Nat) : Option Nat :=
  match items.find? (i + 1 < ·.stop) with
  | some item => if i < item.start then some item.start else none
  | none => none

/-- Reads a character of a title, or what stands for it: the characters, the latest first, and the
position after it. The items after the link text tell where lines go on. -/
def titleChar (p : TextPlace) (items : List Item) (i : Nat) (c : Char) : List Char × Nat :=
  let s := p.source
  let plain := ([c], i + 1)
  if Text.isLineEnd c then
    match itemAfter? items i with
    | some j => (['\n'], j)
    | none => plain
  else if c = '&' then
    match s.entity? i with
    | some (text, j) => (text.toList.reverse, j)
    | none => plain
  else if c = '\\' then
    let inTable := p.inTable && s.hasAll (i + 1) ['\\', '|']
    let escaped := if inTable then i + 3 else i + 1
    if s.hasPunctuation escaped then (s[escaped]?.toList, escaped + 1)
    else if inTable then (['|'], i + 3)
    else plain
  else plain

/-- Reads a title after its opening delimiter: its characters and the position after it. -/
def titleBody? (p : TextPlace) (items : List Item) (opening closing : Char) :
    Nat → Nat → List Char → Option (List Char × Nat)
  | 0, _, _ => none
  | fuel + 1, i, before =>
    match p.source[i]? with
    | none => none
    | some c =>
      if c = closing then some (before.reverse, i + 1)
      else if c = opening then none
      else
        let (chars, j) := p.titleChar items i c
        titleBody? p items opening closing fuel j (chars ++ before)

/-- Reads a title at its opening delimiter. -/
def title? (p : TextPlace) (items : List Item) (i : Nat) : Option (String × Nat) := do
  let opening ← p.source[i]?
  guard (opening == '\x27' || opening == '"' || opening == '(')
  let closing := if opening = '(' then ')' else opening
  let (chars, j) ← p.titleBody? items opening closing (p.source.size - i + 1) (i + 1) []
  return (String.ofList chars, j)

/-- Reads a destination with an optional title in parentheses: what they say, and the position
after them. -/
def target? (p : TextPlace) (items : List Item) (i : Nat) : Option (LinkDefinition × Nat) := do
  let s := p.source
  guard (s.has i '(')
  let (first, last, i) ← s.destination? (s.skipSeparator p.skipMarks (i + 1))
  let i := s.skipSeparator p.skipMarks i
  let (title, i) := match p.title? items i with
    | some (title, j) => (title, s.skipSeparator p.skipMarks j)
    | none => ("", i)
  guard (s.has i ')')
  return (⟨s.unescape p.inTable first last, title⟩, i + 1)

/-! ## Labels -/

/-- A label in brackets. -/
inductive Label where
  | link (text : String)
  | footnote (text : String)

/-- Reads a label at its opening bracket: the label and the position after it. -/
def label? (p : TextPlace) (i : Nat) : Option (Label × Nat) :=
  let s := p.source
  if !s.has i '[' then none
  else
    let footnote : Option (String × Nat) :=
      if p.extensions.footnotes && s.has (i + 1) '^' && !s.has (i + 2) ']' then
        s.label? (fun _ ↦ none) p.inTable (i + 2)
      else none
    match footnote with
    | some (text, j) => some (.footnote text, j)
    | none =>
      (s.label? (fun j ↦ some (p.skipMarks j)) p.inTable (i + 1)).map fun (text, j) ↦
        (.link text, j)

end TextPlace

end NotebookTree.Markdown
