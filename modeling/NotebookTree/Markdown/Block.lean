import NotebookTree.Markdown.Block.Code
import NotebookTree.Markdown.Block.Definition
import NotebookTree.Markdown.Block.Paragraph

/-!
# Reading blocks

`Block.readAll` reads all blocks of a Markdown text together with the definitions of links and
footnotes in it. It goes over the text line by line. A line first closes the containers whose marks
it lacks, then opens new ones, and what is left of it starts a leaf block, which takes as many lines
as belong to it.
-/

namespace NotebookTree.Markdown.Block

namespace Reader

/-! ## Containers -/

/-- Opens a footnote at its label. -/
def footnote? (r : Reader) (i : Nat) : Option (Reader × Nat) := do
  let s := r.source
  guard (s.hasAll i ['[', '^'])
  let (label, j) ← s.label? (fun _ ↦ none) false (i + 2)
  guard (s.has j ':')
  let r := r.finishList i
  let r := match r.stack with
    | ⟨.footnote _, _, _⟩ :: _ => r.pop i
    | _ => r
  let r := { r with definitions := r.definitions.addFootnote label }
  return (r.push i (.footnote label), s.skipSpace (j + 1))

/-- Reads the mark of a list item after an indentation: the mark, the indentation of the contents
of the item and the start of its contents. -/
def itemMark? (s : Source) (indent : Nat) (l : LineStart) :
    Option (Source.ListMark × Nat × LineStart) := do
  let i := l.position
  let (mark, j) ← s.listMark? i
  guard (!(Source.isBullet mark.delimiter && (s.thematicBreak? i).isSome))
  let (spaced, after) := { l with position := j }.takeAll s 1
  guard (spaced || after.atEnd s)
  let width := indent + (j - i) + 1
  if (s.blankLine? after.position).isSome then return (mark, width, after)
  else
    let (more, deeper) := after.takeUpTo s 4
    if more < 4 then return (mark, width + more, deeper) else return (mark, width, after)

/-- Reads the mark of a task with a blank after it. -/
def taskMark? (s : Source) (l : LineStart) : Option (Bool × LineStart) := do
  let (_, l) := l.takeUpTo s 3
  guard (s.has l.position '[')
  let c ← s[l.position + 1]?
  let checked := c == 'x' || c == 'X'
  guard (checked || Source.isSpace c)
  guard (s.has (l.position + 2) ']')
  let next ← s[l.position + 3]?
  guard (Source.isSpace next)
  return (checked, { l with position := l.position + 3 })

/-- What became of the start of a line. -/
inductive LineHead where
  /-- The line is done; the next one starts at the position. -/
  | done (reader : Reader) (next : Nat)
  /-- What is left of the line, which counts as starting at `base`, belongs into the open
  containers. -/
  | rest (reader : Reader) (base : Nat) (start : LineStart)

/-- Opens the containers that a line starts. Containers that end before the line end at `base`. -/
def openContainers (r : Reader) : Nat → Nat → LineStart → LineHead
  | 0, base, l => .rest r base l
  | fuel + 1, base, l =>
    let s := r.source
    let (indent, inner) := l.takeUpTo s 4
    if 4 ≤ indent then .rest r base l
    else
      match if r.extensions.footnotes then r.footnote? inner.position else none with
      | some (r, next) => r.openContainers fuel next (LineStart.ofPosition next)
      | none =>
        match itemMark? s indent inner with
        | some (mark, width, after) =>
          let place := inner.position - indent
          let r := (r.continueList place mark).push place (.item width)
          match s.blankLine? after.position with
          | some next => .done { r with emptyLine := some next } next
          | none =>
            match if r.extensions.tasklists then taskMark? s after else none with
            | none => r.openContainers fuel base after
            | some (checked, rest) =>
              match s.blankLine? rest.position with
              | some next =>
                let r := r.append after.position rest.position (.task checked)
                .done { r with emptyLine := some next } next
              | none =>
                let task := some ⟨after.position, rest.position, checked⟩
                { r with task }.openContainers fuel base rest
        | none =>
          match inner.takeQuoteMark? s with
          | some l => ((r.finishList base).push inner.position .quote).openContainers fuel base l
          | none => .rest r base l

/-! ## Leaf blocks -/

/-- Reads link definitions from a position on. What comes behind them, in a line that would go on
with a paragraph, is a paragraph. -/
def definitionsAndParagraph (r : Reader) : Nat → Nat → Reader × Nat
  | 0, i => r.paragraph i
  | fuel + 1, i =>
    match r.definition? i with
    | none => r.paragraph i
    | some (r, j) =>
      let s := r.source
      match s.blankLine? j with
      | none => (r, j)
      | some next =>
        let (entered, l) := Container.scan s (LineStart.ofPosition next) r.containers
        let contained := entered = r.containers.length
        let (deep, l) := l.takeAll s 4
        if !deep && s.interrupts r.extensions r.containers contained l.position then (r, next)
        else r.definitionsAndParagraph fuel (l.takeRest s).position

/-- How the block of raw markup ends that starts at the position, if one does: with a text, or
before a blank line. -/
def markupEnding? (s : Source) (i : Nat) : Option (Option String) :=
  if !s.has i '<' then none
  else
    match s.htmlBlockEnd? (i + 1) with
    | some ending => some (some ending)
    | none => if s.startsBlockTag (i + 1) || s.isLoneTag i then some none else none

/-- Reads the leaf block that starts in a line. -/
def leaf (r : Reader) (base : Nat) (l : LineStart) : Reader × Nat :=
  let s := r.source
  let r := r.finishList base
  let pending := l.pending
  let (indent, l) := l.takeUpTo s 4
  let i := l.position
  if indent = 4 then r.indentedCode i l.pending
  else
    match markupEnding? s i with
    | some ending => r.markupBlock ending i (max pending indent)
    | none =>
      match s.thematicBreak? i with
      | some next => (r.append i next .rule, next)
      | none =>
        match s.headingLevel? i with
        | some level => r.signedHeading i level
        | none =>
          match s.fence? i with
          | some (c, after) => r.fencedCode i after indent c
          | none => r.definitionsAndParagraph (s.size - i + 1) i

/-! ## The whole text -/

/-- Reads the block that starts at a position, and gives the position after it. -/
def block (r : Reader) (i : Nat) : Reader × Nat :=
  let s := r.source
  let (entered, l) := Container.scan s (LineStart.ofPosition i) r.containers
  let r := r.popTo i entered r.stack.length
  match r.openContainers (s.size - i + 1) i l with
  | .done r next => (r, next)
  | .rest r base l =>
    match s.blankLine? l.position with
    | some next => (r.blank, next)
    | none => r.leaf base l

/-- Reads all blocks from a position on. -/
def blocks : Nat → Reader → Nat → Reader
  | 0, r, _ => r
  | fuel + 1, r, i =>
    if r.source.size ≤ i then r
    else
      let (r, next) := r.block i
      blocks fuel r next

end Reader

/-- The blocks of a text, and the definitions in it. -/
def readAll (extensions : Extensions) (source : Source) : List (Placed Block) × Definitions :=
  let r : Reader :=
    { source, extensions, stack := [], top := [], emptyLine := none, afterBlank := false
      task := none, definitions := ⟨[], []⟩ }
  let r := Reader.blocks (source.size + 1) r 0
  let r := r.popTo source.size 0 r.stack.length
  (r.top.reverse, r.definitions)

end NotebookTree.Markdown.Block
