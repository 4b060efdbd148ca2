import NotebookTree.Markdown.Link

/-!
# Code in a running text

Code stands between two runs of equally many backticks. `BacktickRuns.closing?` finds the second
one, and `TextPlace.codeText` gives the text between them.

A search goes over the items behind the opener one by one. If it fails, the runs that it has passed
are kept, and later searches look among these alone.
-/

namespace NotebookTree.Markdown

/-! ## Finding the end -/

/-- The runs of backticks that searches for the end of code have passed. -/
structure BacktickRuns where
  /-- Has a run been passed? The first one is not noted, as only an opener can stand there. -/
  passed : Bool
  /-- The numbers of backticks and the places of the runs. -/
  noted : List (Nat × Nat)

namespace BacktickRuns

/-- Nothing is passed yet. -/
def empty : BacktickRuns := ⟨false, []⟩

/-- Takes note of a run of backticks. -/
def note (runs : BacktickRuns) (count start : Nat) : BacktickRuns :=
  if runs.passed then { runs with noted := runs.noted ++ [(count, start)] }
  else { runs with passed := true }

/-- Finds the run of so many backticks that closes code: the run and the items after it. A block
before it ends the search. Other runs are noted on the way. -/
def search? (runs : BacktickRuns) (count : Nat) :
    List Item → Option (Item × List Item) × BacktickRuns
  | [] => (none, runs)
  | item :: rest =>
    match item.body with
    | .block _ => (none, runs)
    | .backticks n _ =>
      if n = count then (some (item, rest), empty)
      else (runs.note n item.start).search? count rest
    | _ => runs.search? count rest

/-- Finds the run of so many backticks that closes code, among the runs that are noted if there
are any. -/
def closing? (runs : BacktickRuns) (count first : Nat) (items : List Item) :
    Option (Item × List Item) × BacktickRuns :=
  if count = 0 then (none, runs)
  else if runs.noted.isEmpty then runs.search? count items
  else
    match runs.noted.find? fun (n, start) ↦ n == count && first ≤ start with
    | none => (none, runs)
    | some (_, start) =>
      match items.dropWhile (·.start < start) with
      | closer :: rest => (some (closer, rest), runs)
      | [] => (none, runs)

end BacktickRuns

/-! ## The text -/

namespace TextPlace

/-- The text of a code span from a position to another, with blanks for line ends. -/
def codeChars (p : TextPlace) (stop : Nat) : Nat → Nat → List Char
  | 0, _ => []
  | fuel + 1, i =>
    if stop ≤ i then []
    else
      match p.source[i]? with
      | none => []
      | some c =>
        if Text.isLineEnd c then ' ' :: codeChars p stop fuel (p.skipMarks (i + 1))
        else if c = '\\' && p.inTable && i + 1 < stop && p.source.has (i + 1) '|' then
          '|' :: codeChars p stop fuel (i + 2)
        else c :: codeChars p stop fuel (i + 1)

/-- Takes a space off both ends of a text that has one there and something else too. -/
def trimCode (chars : List Char) : List Char :=
  if chars.all (· == ' ') then chars
  else if chars.head? == some ' ' && chars.getLast? == some ' ' then chars.tail.dropLast
  else chars

/-- The text of the code between two positions. -/
def codeText (p : TextPlace) (first stop : Nat) : String :=
  String.ofList (trimCode (p.codeChars stop (p.source.size + 1) first))

end TextPlace

end NotebookTree.Markdown
