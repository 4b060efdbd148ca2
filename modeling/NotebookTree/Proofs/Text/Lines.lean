import NotebookTree.Text.Lines

/-!
# The lines of a text

`Text.AreLines` says what the lines of a text are, without the function that computes them: a line
goes up to the first line feed and includes it, and what stands behind the last line feed is a line
if it is not empty. `Text.areLines_iff` says that a text has these lines and no others.
-/

namespace NotebookTree.Text

/-- The parts of a text that is cut after each line feed. -/
inductive AreLines : List Char → List (List Char) → Prop where
  | nil : AreLines [] []
  | last {line : List Char} : line ≠ [] → '\n' ∉ line → AreLines line [line]
  | cons {line text : List Char} {parts : List (List Char)} :
      '\n' ∉ line → AreLines text parts →
        AreLines (line ++ '\n' :: text) ((line ++ ['\n']) :: parts)

theorem lines_append {line : List Char} (h : '\n' ∉ line) (text : List Char) :
    lines (line ++ '\n' :: text) = (line ++ ['\n']) :: lines text := by
  induction line with
  | nil => rfl
  | cons c rest ih =>
    obtain ⟨hc, hrest⟩ := List.ne_and_not_mem_of_not_mem_cons h
    rw [List.cons_append, lines, if_neg (Ne.symm hc), ih hrest]
    rfl

theorem lines_of_not_mem {line : List Char} (hne : line ≠ []) (h : '\n' ∉ line) :
    lines line = [line] := by
  induction line with
  | nil => exact absurd rfl hne
  | cons c rest ih =>
    obtain ⟨hc, hrest⟩ := List.ne_and_not_mem_of_not_mem_cons h
    rw [lines, if_neg (Ne.symm hc)]
    cases rest with
    | nil => rfl
    | cons d more => rw [ih (List.cons_ne_nil d more) hrest]

theorem areLines_lines (text : List Char) : AreLines text (lines text) := by
  induction hlength : text.length using Nat.strongRecOn generalizing text with
  | ind length ih =>
    by_cases hmem : '\n' ∈ text
    · obtain ⟨line, rest, rfl, hline⟩ := List.eq_append_cons_of_mem hmem
      rw [lines_append hline]
      refine .cons hline (ih rest.length ?_ rest rfl)
      rw [← hlength, List.length_append, List.length_cons]
      omega
    · by_cases hne : text = []
      · subst hne
        exact .nil
      · rw [lines_of_not_mem hne hmem]
        exact .last hne hmem

/-- A text has exactly one list of lines. -/
theorem areLines_iff {text : List Char} {parts : List (List Char)} :
    AreLines text parts ↔ lines text = parts := by
  constructor
  · intro h
    induction h with
    | nil => rfl
    | last hne hline => exact lines_of_not_mem hne hline
    | cons hline _ ih => rw [lines_append hline, ih]
  · rintro rfl
    exact areLines_lines text

end NotebookTree.Text
