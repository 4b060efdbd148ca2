/-!
# Lines

A text is cut into lines after each line feed, which stays with its line. Nothing is lost: the
lines in order are the text, and only the last one may lack its line feed.
-/

namespace NotebookTree.Text

/-- Cuts a text after each line feed. The empty text has no lines. -/
def lines : List Char → List (List Char)
  | [] => []
  | c :: rest =>
    if c = '\n' then [c] :: lines rest
    else match lines rest with
      | [] => [[c]]
      | line :: more => (c :: line) :: more

/-- The lines of a text, in order, are the text. -/
theorem flatten_lines (text : List Char) : (lines text).flatten = text := by
  induction text with
  | nil => rfl
  | cons c rest ih =>
    unfold lines
    split
    · simp [ih]
    · split
      · next h => simp [h] at ih; simp [ih]
      · next line more h => simp [h] at ih; simp [ih]

end NotebookTree.Text
