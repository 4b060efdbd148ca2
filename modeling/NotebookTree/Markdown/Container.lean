import NotebookTree.Markdown.Source

/-!
# Containers and the start of a line

Quotes, list items and footnotes contain blocks, and each line of their contents starts with marks
of all containers around it. A `LineStart` is a position in the leading white space of a line,
where a tab may be used up in part. `Container.scan` takes the marks of the open containers off a
line as far as they are there.
-/

namespace NotebookTree.Markdown

/-- A position in the white space at the start of a line. -/
structure LineStart where
  position : Nat
  /-- Tab stops are counted from here. -/
  origin : Nat
  /-- The columns of the last tab that are not used up. -/
  pending : Nat
  deriving Inhabited

namespace LineStart

/-- The start of a line. -/
def ofPosition (position : Nat) : LineStart := ⟨position, position, 0⟩

/-- Takes at most `columns` columns of white space in at most so many steps. Gives the number of
columns that were not there. -/
def takeSteps (s : Source) : Nat → Nat → LineStart → Nat × LineStart
  | 0, columns, l => (columns, l)
  | steps + 1, columns, l =>
    if columns = 0 then (0, l)
    else
      match s[l.position]? with
      | some ' ' => takeSteps s steps (columns - 1) { l with position := l.position + 1 }
      | some '\t' =>
        let width := 4 - (l.position - l.origin) % 4
        let used := min columns width
        takeSteps s steps (columns - used) ⟨l.position + 1, l.position + 1, width - used⟩
      | _ => (columns, l)

/-- Takes at most `columns` columns of white space. Gives the number of columns that were not
there. -/
def takeColumns (s : Source) (columns : Nat) (l : LineStart) : Nat × LineStart :=
  let used := min columns l.pending
  takeSteps s (columns - used) (columns - used) { l with pending := l.pending - used }

/-- Takes exactly `columns` columns, or else as many as there are and says so. -/
def takeAll (s : Source) (columns : Nat) (l : LineStart) : Bool × LineStart :=
  let (missing, l) := l.takeColumns s columns
  (missing == 0, l)

/-- Takes as many columns as there are up to `columns`, and says how many. -/
def takeUpTo (s : Source) (columns : Nat) (l : LineStart) : Nat × LineStart :=
  let (missing, l) := l.takeColumns s columns
  (columns - missing, l)

/-- Takes all spaces and tabs. -/
def takeRest (s : Source) (l : LineStart) : LineStart :=
  { l with position := s.skip Text.isIndent l.position, pending := 0 }

/-- Is nothing left of the line? -/
def atEnd (s : Source) (l : LineStart) : Bool :=
  match s[l.position]? with
  | none => true
  | some c => Text.isLineEnd c

/-- Takes the mark of a quote with the space after it. -/
def takeQuoteMark? (s : Source) (l : LineStart) : Option LineStart :=
  if s.has l.position '>' then
    some ({ l with position := l.position + 1 }.takeAll s 1).2
  else none

end LineStart

/-- An open container. Lists have no marks of their own. -/
inductive Container where
  | quote
  | list
  | item (indent : Nat)
  | footnote
  deriving DecidableEq, Inhabited

namespace Container

/-- Takes the mark of a container off a line. -/
def take? (s : Source) (l : LineStart) : Container → Option LineStart
  | quote => (l.takeAll s 3).2.takeQuoteMark? s
  | list => some l
  | item indent => indented indent
  | footnote => indented 4
where
  indented (columns : Nat) : Option LineStart :=
    let (all, after) := l.takeAll s columns
    if all || after.atEnd s then some after else none

/-- Takes the marks of containers, the outermost first, off a line. Gives the number of containers
whose marks are there. -/
def scan (s : Source) (l : LineStart) : List Container → Nat × LineStart
  | [] => (0, l)
  | container :: rest =>
    match container.take? s l with
    | none => (0, l)
    | some l =>
      let (n, l) := scan s l rest
      (n + 1, l)

/-- Skips the marks of containers at a line start, as far as they are there. -/
def skipMarks (s : Source) (containers : List Container) (i : Nat) : Nat :=
  (scan s (LineStart.ofPosition i) containers).2.position

/-- Does the line at a position lie in all containers? Gives its start without their marks. -/
def enterAll? (s : Source) (containers : List Container) (i : Nat) : Option LineStart :=
  let (n, l) := scan s (LineStart.ofPosition i) containers
  if n = containers.length then some l else none

end Container

end NotebookTree.Markdown
