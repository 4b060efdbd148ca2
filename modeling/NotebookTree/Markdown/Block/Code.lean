import NotebookTree.Markdown.Block.Reader

/-!
# Code and raw markup

The leaf blocks whose lines are taken as they are: fenced code, indented code, and blocks of raw
markup.
-/

namespace NotebookTree.Markdown.Block

namespace Reader

/-! ## Code -/

/-- The text of a line, in one or two pieces: a carriage return before a last character of one octet
is dropped. -/
def linePieces (s : Source) (i j : Nat) : List String :=
  let short := (s[j - 1]?.map (·.utf8Size == 1)).getD false
  if 2 ≤ j && short && s.has (j - 2) '\r' then [s.slice i (j - 2), s.slice (j - 1) j]
  else [s.slice i j]

/-- Text of a code block from one position to another, behind so many spaces. -/
def codeText (s : Source) (spaces i j : Nat) : String :=
  String.ofList (List.replicate spaces ' ') ++ String.join (linePieces s i j)

/-- What the lines of a block come to: their texts, the latest first, the end of the block, and the
position after it. -/
structure Lines (α : Type) where
  texts : List α
  stop : Nat
  next : Nat

/-- Reads the lines of a fenced code block. -/
def fencedLines (r : Reader) (indent : Nat) (c : Char) (count : Nat) :
    Nat → Nat → List String → Lines String
  | 0, i, texts => ⟨texts, i, i⟩
  | fuel + 1, i, texts =>
    let s := r.source
    match Container.enterAll? s r.containers i with
    | none => ⟨texts, i, i⟩
    | some l =>
      let l := (l.takeAll s indent).2
      let (deep, closing) := l.takeAll s (4 - indent)
      let closed := if deep then none else s.closingFence? c count closing.position
      match closed with
      | some j => ⟨texts, j, (s.blankLine? j).getD j⟩
      | none =>
        let next := s.nextLine l.position
        fencedLines r indent c count fuel next (codeText s l.pending l.position next :: texts)

/-- Reads a fenced code block whose fence stands from `i` to `after`. -/
def fencedCode (r : Reader) (i after indent : Nat) (c : Char) : Reader × Nat :=
  let s := r.source
  let infoStart := s.skipSpace after
  let next := s.nextLine infoStart
  let infoStop := s.skipBack Source.isSpaceOrEnd infoStart next
  let info := s.unescape false infoStart infoStop
  let lines := r.fencedLines indent c (after - i) (s.size - next + 1) next []
  (r.append i lines.stop (.code (some info) (String.join lines.texts.reverse)), lines.next)

/-- Reads the lines of an indented code block, behind so many spaces of a tab. Gives them with the
mark whether the last line is blank. `texts` are the lines so far; `kept` are those up to the last
line that is not blank. -/
def indentedLines (r : Reader) : Nat → Nat → Nat → Bool → List String → Lines String →
    Lines String × Bool
  | 0, _, _, blank, _, kept => (kept, blank)
  | fuel + 1, i, spaces, blank, texts, kept =>
    let s := r.source
    let next := s.nextLine i
    let texts := codeText s spaces i next :: texts
    let kept : Lines String := if blank then { kept with next } else ⟨texts, next, next⟩
    match Container.enterAll? s r.containers next with
    | none => (kept, blank)
    | some l =>
      let (deep, l) := l.takeAll s 4
      if !(deep || l.atEnd s) || l.position = s.size then (kept, blank)
      else indentedLines r fuel l.position l.pending (s.blankLine? l.position).isSome texts kept

/-- Reads an indented code block at a position, behind so many spaces of a tab. -/
def indentedCode (r : Reader) (i spaces : Nat) : Reader × Nat :=
  let (lines, blank) := r.indentedLines (r.source.size - i + 1) i spaces false [] ⟨[], i, i⟩
  let text := String.join lines.texts.reverse
  ({ r with afterBlank := blank }.append i lines.stop (.code none text), lines.next)

/-! ## Raw markup -/

/-- Does the text hold the given part from a position up to another? -/
def holds (s : Source) (part : List Char) (i j : Nat) : Bool :=
  (List.range (j - i)).any fun k ↦ i + k + part.length ≤ j && s.hasAll (i + k) part

/-- Reads the lines of a block of raw markup. It ends after the line that has the ending, or before
a blank line if there is none. -/
def markupLines (r : Reader) (ending : Option String) : Nat → Nat → Nat → List MarkupLine →
    Lines MarkupLine
  | 0, i, _, texts => ⟨texts, i, i⟩
  | fuel + 1, i, indent, texts =>
    let s := r.source
    let next := s.nextLine i
    let texts : List MarkupLine := ⟨indent, linePieces s i next⟩ :: texts
    match Container.enterAll? s r.containers next with
    | none => ⟨texts, next, next⟩
    | some l =>
      let (ended, stop) := match ending with
        | some part => (holds s part.toList i next, next)
        | none =>
          if l.atEnd s then (true, next) else ((s.blankLine? l.position).isSome, l.position)
      if ended then ⟨texts, stop, next⟩
      else if l.position = s.size then ⟨texts, s.size, next⟩
      else markupLines r ending fuel l.position l.pending texts

/-- Reads a block of raw markup. -/
def markupBlock (r : Reader) (ending : Option String) (i indent : Nat) : Reader × Nat :=
  let lines := r.markupLines ending (r.source.size - i + 1) i indent []
  (r.append i lines.stop (.html lines.texts.reverse), lines.next)

end Reader

end NotebookTree.Markdown.Block
