import NotebookTree.Markdown.Block.Reader

/-!
# Tables

A table has a head, a row of dashes and further rows. All rows have as many cells as the row of
dashes has columns: cells that are missing are added, and those too many are dropped.
-/

namespace NotebookTree.Markdown.Block

/-- The greatest number of cells that a table is filled up with. -/
def maxFilledCells : Nat := Nat.pow 2 18

/-- Reads the cells of a row, the latest first, and the position after the row. -/
def rowCells (s : Source) (extensions : Extensions) :
    Nat → Nat → List LeafText → List LeafText × Nat
  | 0, i, cells => (cells, i)
  | fuel + 1, i, cells =>
    let first := s.skipSpace (s.skipChar i '|')
    match s.lineEnd? first with
    | some next => (cells, next)
    | none =>
      let line := s.readLine extensions .cell s.size [] first
      rowCells s extensions fuel line.next (⟨line.items.reverse, line.next⟩ :: cells)

/-- Makes a row have exactly the given number of cells. -/
def fitRow (columns next : Nat) (cells : List LeafText) : List LeafText :=
  let cells := cells.reverse.take columns
  cells ++ List.replicate (columns - cells.length) ⟨[], next⟩

namespace Reader

/-- Reads the rows of a table after its head, the latest first. The number counts the cells that
have been filled up. -/
def tableRows (r : Reader) (columns : Nat) : Nat → Nat → Nat → List (List LeafText) →
    List (List LeafText) × Nat
  | 0, i, _, rows => (rows, i)
  | fuel + 1, i, filled, rows =>
    let s := r.source
    match Container.enterAll? s r.containers i with
    | none => (rows, i)
    | some l =>
      let first := (l.takeRest s).position
      if s.interruptsPlain r.extensions true true first then (rows, i)
      else
        let (cells, next) := rowCells s r.extensions (s.size - first + 1) first []
        let missing := columns - cells.length
        if cells.isEmpty || maxFilledCells < filled + missing then (rows, i)
        else tableRows r columns fuel next (filled + missing) (fitRow columns next cells :: rows)

/-- Reads a table with its head at `first` and its rows from `i` on. -/
def table (r : Reader) (alignments : List Alignment) (first i : Nat) : Reader × Nat :=
  let s := r.source
  let columns := alignments.length
  let (cells, next) := rowCells s r.extensions (s.size - first + 1) first []
  let (rows, after) := r.tableRows columns (s.size - i + 1) i 0 []
  (r.append first after (.table alignments (fitRow columns next cells) rows.reverse), after)

end Reader

end NotebookTree.Markdown.Block
