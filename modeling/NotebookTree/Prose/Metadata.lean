import NotebookTree.Text.Lines

/-!
# Leading metadata

A Markdown text may start with a block of metadata between two fences, lines of exactly three
dashes. `splitMetadata?` gives the text between the fences and the text after them. Without a
closing fence there is no metadata.
-/

namespace NotebookTree

/-- Is the line three dashes with nothing but its line end? -/
def isFence (line : List Char) : Bool :=
  (line.reverse.dropWhile fun c ↦ c == '\n' || c == '\r') == ['-', '-', '-']

/-- Splits lines at the first fence: the lines before it, and those after it. -/
def splitAtFence? : List (List Char) → Option (List (List Char) × List (List Char))
  | [] => none
  | line :: rest =>
    if isFence line then some ([], rest)
    else (splitAtFence? rest).map fun (before, after) ↦ (line :: before, after)

/-- Splits leading metadata off a text. -/
def splitMetadata? (text : List Char) : Option (List Char × List Char) :=
  match Text.lines text with
  | [] => none
  | opening :: rest =>
    if isFence opening then
      (splitAtFence? rest).map fun (metadata, body) ↦ (metadata.flatten, body.flatten)
    else none

end NotebookTree
