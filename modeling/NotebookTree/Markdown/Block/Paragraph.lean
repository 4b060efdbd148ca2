import NotebookTree.Markdown.Block.Heading
import NotebookTree.Markdown.Block.Table

/-!
# Paragraphs

What starts like a paragraph goes on as long as no line ends it, also without the marks of the
containers around it. A line under it may turn it into a heading, and its second line into a
table.
-/

namespace NotebookTree.Markdown.Block.Reader

/-- What became of the lines of a paragraph. -/
inductive ParagraphEnd where
  | paragraph (items : List Item) (next : Nat)
  /-- The text of a heading, with the place of a backslash at its end. -/
  | heading (level : Nat) (items : List Item) (backslash : Option Nat) (next : Nat)

/-- Reads the lines of a paragraph from a position on. -/
def paragraphLines (r : Reader) : Nat → Nat → List Item → ParagraphEnd
  | 0, i, items => .paragraph items i
  | fuel + 1, i, items =>
    let s := r.source
    let line := s.readLine r.extensions .none s.size items i
    let backslash := match line.lineBreak with
      | some ⟨start, _, .hardBreak true⟩ => some start
      | _ => none
    let closed := match backslash with
      | some start => pushText line.items start (start + 1) false
      | none => line.items
    let containers := r.containers
    let (entered, l) := Container.scan s (LineStart.ofPosition line.next) containers
    let contained := entered = containers.length
    let (deep, l) := l.takeAll s 4
    let underline := if !deep && contained then s.underline? l.position else none
    match underline with
    | some (level, next) => .heading level line.items backslash next
    | none =>
      if !deep && s.interrupts r.extensions containers contained l.position then
        .paragraph closed line.next
      else
        let l := l.takeRest s
        if l.atEnd s then .paragraph closed line.next
        else paragraphLines r fuel l.position (line.lineBreak.toList ++ line.items)

/-- Reads the table whose head stands in the line, if there is one. No table follows a line that
ends in a backslash. -/
def table? (r : Reader) (i : Nat) : Option (Reader × Nat) := do
  let s := r.source
  guard r.extensions.tables
  let line := s.readLine r.extensions .candidate s.size [] i
  let ending ← line.lineBreak
  guard (line.bars != 0 && ending.body != .hardBreak true)
  let (alignments, next) ←
    s.secondRow? r.containers (s.headColumns line.bars i line.lastBar) line.next
  return r.table alignments i next

/-- Reads a paragraph, or the heading or table that it turns out to be. The mark of a task goes into
it, but not into a table. -/
def paragraph (r : Reader) (i : Nat) : Reader × Nat :=
  let task : List Item := r.task.toList.map fun mark ↦ ⟨mark.start, mark.stop, .task mark.body⟩
  let r := { r with task := none }
  match r.table? i with
  | some result => result
  | none =>
    match r.paragraphLines (r.source.size - i + 1) i task with
    | .paragraph items next => (r.append i next (.paragraph ⟨items.reverse, next⟩), next)
    | .heading level items backslash next =>
      (r.append i next (underlinedHeading r level i next items backslash), next)

end NotebookTree.Markdown.Block.Reader
