import Mathlib.Data.List.Basic
import NotebookTree.Notebook.Basic
import NotebookTree.Proofs.Text.Lines
import NotebookTree.Prose.Metadata

/-!
# Metadata blocks

`IsMetadataBlock` is the grammar of a metadata block: the text starts with a fence, the metadata are
whole lines none of which is a fence, and a second fence ends them. `splitMetadata?_exact` says that
`splitMetadata?` accepts exactly this grammar, that a text has at most one such decomposition, and
which texts have none.

A notebook stores the lines of a cell with or without their line feeds, and they are joined with
line feeds in both cases. `findsMetadata_of_stored_lines` says that the block is found at the same
lines either way.
-/

namespace NotebookTree

/-! ## Fences -/

/-- Three dashes with nothing but carriage returns and line feeds behind them. -/
def IsFence (line : List Char) : Prop :=
  ∃ ends, line = ['-', '-', '-'] ++ ends ∧ ∀ c ∈ ends, c = '\r' ∨ c = '\n'

theorem isFence_iff {line : List Char} : isFence line = true ↔ IsFence line := by
  have hends (c : Char) : (c == '\n' || c == '\r') = true ↔ c = '\r' ∨ c = '\n' := by
    rw [Bool.or_eq_true, beq_iff_eq, beq_iff_eq, or_comm]
  rw [isFence, beq_iff_eq]
  constructor
  · intro h
    refine ⟨(line.reverse.takeWhile fun c ↦ c == '\n' || c == '\r').reverse, ?_, ?_⟩
    · have hparts := List.takeWhile_append_dropWhile (p := fun c ↦ c == '\n' || c == '\r')
        (l := line.reverse)
      have hline := congrArg List.reverse hparts
      rw [h, List.reverse_append, List.reverse_reverse] at hline
      exact hline.symm
    · intro c hc
      exact (hends c).1 (List.all_eq_true.1 List.all_takeWhile c (List.mem_reverse.1 hc))
  · rintro ⟨ends, rfl, h⟩
    rw [List.reverse_append, List.dropWhile_append_of_pos]
    · rfl
    · exact fun c hc ↦ (hends c).2 (h c (List.mem_reverse.1 hc))

theorem isFence_eq_false_iff {line : List Char} : isFence line = false ↔ ¬IsFence line := by
  rw [← isFence_iff, Bool.not_eq_true]

/-- The line feed at the end of a line has no bearing on whether it is a fence. -/
theorem isFence_append_newline (line : List Char) : isFence (line ++ ['\n']) = isFence line := by
  rw [isFence, isFence, List.reverse_append]
  rfl

/-- The first fence cuts lines in two. -/
theorem splitAtFence?_eq_some_iff {parts before after : List (List Char)} :
    splitAtFence? parts = some (before, after) ↔
      ∃ closing, parts = before ++ closing :: after ∧ IsFence closing ∧
        ∀ line ∈ before, ¬IsFence line := by
  induction parts generalizing before with
  | nil => simp [splitAtFence?]
  | cons line rest ih =>
    by_cases hline : IsFence line
    · rw [splitAtFence?, if_pos (isFence_iff.2 hline)]
      constructor
      · intro h
        cases h
        exact ⟨line, rfl, hline, by simp⟩
      · rintro ⟨closing, hparts, -, hbefore⟩
        cases before with
        | nil => rw [List.nil_append, List.cons.injEq] at hparts; rw [hparts.2]
        | cons first others =>
          rw [List.cons_append, List.cons.injEq] at hparts
          exact absurd (hparts.1 ▸ hline) (hbefore first List.mem_cons_self)
    · rw [splitAtFence?, if_neg (by rwa [isFence_iff]), Option.map_eq_some_iff]
      constructor
      · rintro ⟨⟨inner, rest'⟩, hrest, heq⟩
        cases heq
        obtain ⟨closing, rfl, hclosing, hinner⟩ := ih.1 hrest
        exact ⟨closing, rfl, hclosing, List.forall_mem_cons.2 ⟨hline, hinner⟩⟩
      · rintro ⟨closing, hparts, hclosing, hbefore⟩
        cases before with
        | nil =>
          rw [List.nil_append, List.cons.injEq] at hparts
          exact absurd (hparts.1 ▸ hclosing) hline
        | cons first others =>
          rw [List.cons_append, List.cons.injEq] at hparts
          rw [hparts.1]
          exact ⟨(others, after), ih.2 ⟨closing, hparts.2, hclosing,
            (List.forall_mem_cons.1 hbefore).2⟩, rfl⟩

theorem splitAtFence?_eq_none_iff {parts : List (List Char)} :
    splitAtFence? parts = none ↔ ∀ line ∈ parts, ¬IsFence line := by
  induction parts with
  | nil => simp [splitAtFence?]
  | cons line rest ih =>
    by_cases hline : IsFence line
    · simp [splitAtFence?, isFence_iff.2 hline, hline]
    · simp [splitAtFence?, isFence_eq_false_iff.2 hline, hline, ih]

/-! ## Blocks of lines -/

/-- The lines between two fences at the start of a list of lines, and those behind. -/
def splitLines? : List (List Char) → Option (List (List Char) × List (List Char))
  | [] => none
  | opening :: rest => if isFence opening then splitAtFence? rest else none

theorem splitMetadata?_eq (text : List Char) :
    splitMetadata? text =
      (splitLines? (Text.lines text)).map fun parts ↦ (parts.1.flatten, parts.2.flatten) := by
  unfold splitMetadata? splitLines?
  cases Text.lines text with
  | nil => rfl
  | cons opening rest =>
    dsimp only
    split <;> rfl

/-- Lines that start with a block: an opening fence, lines that are no fences, a closing fence and
the rest. -/
structure IsBlock (parts : List (List Char)) (opening : List Char) (inner : List (List Char))
    (closing : List Char) (rest : List (List Char)) : Prop where
  parts_eq : parts = opening :: (inner ++ closing :: rest)
  opening : IsFence opening
  closing : IsFence closing
  inner : ∀ line ∈ inner, ¬IsFence line

theorem splitLines?_eq_some_iff {parts inner rest : List (List Char)} :
    splitLines? parts = some (inner, rest) ↔
      ∃ opening closing, IsBlock parts opening inner closing rest := by
  cases parts with
  | nil =>
    refine iff_of_false (by simp [splitLines?]) ?_
    rintro ⟨opening, closing, h⟩
    cases h.parts_eq
  | cons first others =>
    rw [splitLines?]
    constructor
    · intro h
      split at h
      · next hfirst =>
        obtain ⟨closing, rfl, hclosing, hinner⟩ := splitAtFence?_eq_some_iff.1 h
        exact ⟨first, closing, rfl, isFence_iff.1 hfirst, hclosing, hinner⟩
      · cases h
    · rintro ⟨opening, closing, hparts, hopening, hclosing, hinner⟩
      obtain ⟨rfl, rfl⟩ := List.cons.inj hparts
      rw [if_pos (isFence_iff.2 hopening)]
      exact splitAtFence?_eq_some_iff.2 ⟨closing, rfl, hclosing, hinner⟩

/-- Lines start with at most one block. -/
theorem IsBlock.unique {parts inner rest inner' rest' : List (List Char)}
    {opening closing opening' closing' : List Char} (h : IsBlock parts opening inner closing rest)
    (h' : IsBlock parts opening' inner' closing' rest') :
    opening = opening' ∧ inner = inner' ∧ closing = closing' ∧ rest = rest' := by
  have hsplit := splitLines?_eq_some_iff.2 ⟨opening, closing, h⟩
  rw [splitLines?_eq_some_iff.2 ⟨opening', closing', h'⟩] at hsplit
  cases hsplit
  obtain ⟨hopening, hothers⟩ := List.cons.inj (h.parts_eq.symm.trans h'.parts_eq)
  exact ⟨hopening, rfl, (List.cons.inj (List.append_cancel_left hothers)).1, rfl⟩

theorem splitLines?_eq_none_iff {parts : List (List Char)} :
    splitLines? parts = none ↔
      (∀ opening ∈ parts.head?, ¬IsFence opening) ∨ ∀ closing ∈ parts.tail, ¬IsFence closing := by
  cases parts with
  | nil => simp [splitLines?]
  | cons opening rest =>
    rw [splitLines?, List.head?_cons, List.tail_cons, ← splitAtFence?_eq_none_iff]
    by_cases h : IsFence opening
    · simp [isFence_iff.2 h, h]
    · simp [isFence_eq_false_iff.2 h, h]

/-! ## Metadata at the start of a text -/

/-- A text that starts with metadata: a fence, whole lines that are no fences, a second fence, and
the body. -/
structure IsMetadataBlock (text opening metadata closing body : List Char) : Prop where
  text_eq : text = opening ++ metadata ++ closing ++ body
  lines : ∃ inner rest, Text.AreLines text (opening :: (inner ++ closing :: rest)) ∧
    metadata = inner.flatten ∧ ∀ line ∈ inner, ¬IsFence line
  opening : IsFence opening
  closing : IsFence closing

theorem isMetadataBlock_iff {text opening metadata closing body : List Char} :
    IsMetadataBlock text opening metadata closing body ↔
      ∃ inner rest, IsBlock (Text.lines text) opening inner closing rest ∧
        metadata = inner.flatten ∧ body = rest.flatten := by
  constructor
  · rintro ⟨htext, ⟨inner, rest, hlines, rfl, hinner⟩, hopening, hclosing⟩
    have hparts := Text.areLines_iff.1 hlines
    refine ⟨inner, rest, ⟨hparts, hopening, hclosing, hinner⟩, rfl, ?_⟩
    have hflat := Text.flatten_lines text
    rw [hparts, htext] at hflat
    simpa using hflat.symm
  · rintro ⟨inner, rest, hblock, rfl, rfl⟩
    refine ⟨?_, ⟨inner, rest, ?_, rfl, hblock.inner⟩, hblock.opening, hblock.closing⟩
    · have hflat := Text.flatten_lines text
      rw [hblock.parts_eq] at hflat
      simpa using hflat.symm
    · exact Text.areLines_iff.2 hblock.parts_eq

theorem splitMetadata?_eq_some_iff {text metadata body : List Char} :
    splitMetadata? text = some (metadata, body) ↔
      ∃ opening closing, IsMetadataBlock text opening metadata closing body := by
  rw [splitMetadata?_eq, Option.map_eq_some_iff]
  constructor
  · rintro ⟨⟨inner, rest⟩, hsplit, heq⟩
    cases heq
    obtain ⟨opening, closing, hblock⟩ := splitLines?_eq_some_iff.1 hsplit
    exact ⟨opening, closing, isMetadataBlock_iff.2 ⟨inner, rest, hblock, rfl, rfl⟩⟩
  · rintro ⟨opening, closing, h⟩
    obtain ⟨inner, rest, hblock, rfl, rfl⟩ := isMetadataBlock_iff.1 h
    exact ⟨(inner, rest), splitLines?_eq_some_iff.2 ⟨opening, closing, hblock⟩, rfl⟩

/-- Metadata is split off exactly the texts that start with a block of the grammar, with its parts
as the grammar has them, and a text is such a block in at most one way. No metadata is split off
when the first line is no fence, or no later line is one, and in no other case. -/
theorem splitMetadata?_exact (text : List Char) :
    (∀ metadata body, splitMetadata? text = some (metadata, body) ↔
      ∃ opening closing, IsMetadataBlock text opening metadata closing body) ∧
    (∀ opening metadata closing body opening' metadata' closing' body',
      IsMetadataBlock text opening metadata closing body →
      IsMetadataBlock text opening' metadata' closing' body' →
        opening = opening' ∧ metadata = metadata' ∧ closing = closing' ∧ body = body') ∧
    ∃ parts, Text.AreLines text parts ∧
      (splitMetadata? text = none ↔
        (∀ opening ∈ parts.head?, ¬IsFence opening) ∨ ∀ closing ∈ parts.tail, ¬IsFence closing) := by
  refine ⟨fun metadata body ↦ splitMetadata?_eq_some_iff, ?_, ?_⟩
  · intro opening metadata closing body opening' metadata' closing' body' h h'
    obtain ⟨inner, rest, hblock, rfl, rfl⟩ := isMetadataBlock_iff.1 h
    obtain ⟨inner', rest', hblock', rfl, rfl⟩ := isMetadataBlock_iff.1 h'
    obtain ⟨rfl, rfl, rfl, rfl⟩ := hblock.unique hblock'
    exact ⟨rfl, rfl, rfl, rfl⟩
  · refine ⟨Text.lines text, Text.areLines_lines text, ?_⟩
    rw [splitMetadata?_eq, Option.map_eq_none_iff, splitLines?_eq_none_iff]

/-- Windows line ends, a carriage return more behind the closing fence, and a line in the metadata
that starts like a fence. -/
theorem splitMetadata?_exact_returns :
    IsMetadataBlock "---\r\na: 1\r\n--- \r\n---\r\r\nrest".toList "---\r\n".toList
        "a: 1\r\n--- \r\n".toList "---\r\r\n".toList "rest".toList ∧
      splitMetadata? "---\r\na: 1\r\n--- \r\n---\r\r\nrest".toList =
        some ("a: 1\r\n--- \r\n".toList, "rest".toList) := by
  have hsplit : splitMetadata? "---\r\na: 1\r\n--- \r\n---\r\r\nrest".toList =
      some ("a: 1\r\n--- \r\n".toList, "rest".toList) := by decide
  have hblock : IsMetadataBlock "---\r\na: 1\r\n--- \r\n---\r\r\nrest".toList "---\r\n".toList
      "a: 1\r\n--- \r\n".toList "---\r\r\n".toList "rest".toList := by
    refine isMetadataBlock_iff.2 ⟨["a: 1\r\n".toList, "--- \r\n".toList], ["rest".toList],
      ⟨by decide, isFence_iff.1 (by decide), isFence_iff.1 (by decide), ?_⟩, by decide, by decide⟩
    have hnone : ∀ line ∈ ["a: 1\r\n".toList, "--- \r\n".toList], isFence line = false := by decide
    exact fun line hline ↦ isFence_eq_false_iff.1 (hnone line hline)
  obtain ⟨hiff, hunique, -⟩ := splitMetadata?_exact "---\r\na: 1\r\n--- \r\n---\r\r\nrest".toList
  obtain ⟨opening, closing, h⟩ := (hiff _ _).1 hsplit
  obtain ⟨rfl, -, rfl, -⟩ := hunique _ _ _ _ _ _ _ _ h hblock
  exact ⟨h, hsplit⟩

/-! ## Lines that are joined with line feeds -/

section Joined

variable {parts inner rest : List (List Char)} {opening closing : List Char}

theorem isSome_splitAtFence? (parts : List (List Char)) :
    (splitAtFence? parts).isSome = parts.any isFence := by
  induction parts with
  | nil => rfl
  | cons line rest ih =>
    rw [splitAtFence?, List.any_cons]
    split
    · next h => rw [h]; rfl
    · next h => rw [Option.isSome_map, ih, Bool.eq_false_iff.2 h, Bool.false_or]

theorem isSome_splitLines?_cons (opening : List Char) (rest : List (List Char)) :
    (splitLines? (opening :: rest)).isSome = (isFence opening && rest.any isFence) := by
  rw [splitLines?]
  split
  · next h => rw [isSome_splitAtFence?, h, Bool.true_and]
  · next h => rw [Bool.eq_false_iff.2 h, Bool.false_and]; rfl

theorem lines_intercalate_singleton {line : List Char} (h : '\n' ∉ line) :
    Text.lines (['\n'].intercalate [line]) = if line = [] then [] else [line] := by
  rw [List.intercalate_singleton]
  split
  · next hempty => rw [hempty, Text.lines]
  · next hne => exact Text.lines_of_not_mem hne h

theorem lines_intercalate_cons_cons {line : List Char} (h : '\n' ∉ line) (next : List Char)
    (more : List (List Char)) :
    Text.lines (['\n'].intercalate (line :: next :: more)) =
      (line ++ ['\n']) :: Text.lines (['\n'].intercalate (next :: more)) := by
  rw [List.intercalate_cons_cons, List.append_assoc, List.singleton_append, Text.lines_append h]

/-- An empty last line, which is no line of the joined text, is no fence. -/
theorem any_isFence_lines_intercalate (h : ∀ line ∈ parts, '\n' ∉ line) :
    (Text.lines (['\n'].intercalate parts)).any isFence = parts.any isFence := by
  induction parts with
  | nil => rfl
  | cons line others ih =>
    obtain ⟨hline, hothers⟩ := List.forall_mem_cons.1 h
    cases others with
    | nil =>
      rw [lines_intercalate_singleton hline]
      split
      · next hempty => rw [hempty]; rfl
      · rfl
    | cons next more =>
      rw [lines_intercalate_cons_cons hline, List.any_cons, isFence_append_newline, ih hothers]
      rfl

theorem isSome_splitMetadata?_intercalate (h : ∀ line ∈ parts, '\n' ∉ line) :
    (splitMetadata? (['\n'].intercalate parts)).isSome = (splitLines? parts).isSome := by
  rw [splitMetadata?_eq, Option.isSome_map]
  cases parts with
  | nil => rfl
  | cons line others =>
    obtain ⟨hline, hothers⟩ := List.forall_mem_cons.1 h
    cases others with
    | nil =>
      rw [lines_intercalate_singleton hline]
      split
      · next hempty => rw [hempty]; rfl
      · rfl
    | cons next more =>
      rw [lines_intercalate_cons_cons hline, isSome_splitLines?_cons, isSome_splitLines?_cons,
        isFence_append_newline, any_isFence_lines_intercalate hothers]

theorem intercalate_append_cons (line : List Char) (before after : List (List Char)) :
    ['\n'].intercalate (before ++ line :: after) =
      before.flatMap (· ++ ['\n']) ++ ['\n'].intercalate (line :: after) := by
  induction before with
  | nil => rfl
  | cons first others ih =>
    rw [List.cons_append, List.intercalate_cons_of_ne_nil (by simp), ih, List.flatMap_cons]
    simp only [List.append_assoc]

theorem areLines_flatMap_append {text : List Char} (h : ∀ line ∈ inner, '\n' ∉ line)
    (htext : Text.AreLines text parts) :
    Text.AreLines (inner.flatMap (· ++ ['\n']) ++ text) (inner.map (· ++ ['\n']) ++ parts) := by
  induction inner with
  | nil => exact htext
  | cons line others ih =>
    obtain ⟨hline, hothers⟩ := List.forall_mem_cons.1 h
    have hcons := Text.AreLines.cons hline (ih hothers)
    simpa using hcons

/-- The metadata of a text is found between the two lines that are given. -/
structure FindsMetadata (text opening metadata closing body : List Char) : Prop where
  splitMetadata?_eq : splitMetadata? text = some (metadata, body)
  block : IsMetadataBlock text opening metadata closing body

/-- The block of joined lines is found at its lines. -/
theorem findsMetadata_intercalate (h : IsBlock parts opening inner closing rest)
    (hparts : ∀ line ∈ parts, '\n' ∉ line) :
    FindsMetadata (['\n'].intercalate parts) (opening ++ ['\n']) (inner.flatMap (· ++ ['\n']))
      (closing ++ if rest = [] then [] else ['\n']) (['\n'].intercalate rest) := by
  obtain ⟨rfl, hopening, hclosing, hinner⟩ := h
  simp only [List.forall_mem_cons, List.forall_mem_append] at hparts
  obtain ⟨hopeningLine, hinnerLines, hclosingLine, hrestLines⟩ := hparts
  have hends {line : List Char} (hline : IsFence line) {ends : List Char}
      (hends : ends = [] ∨ ends = ['\n']) : IsFence (line ++ ends) := by
    rcases hends with rfl | rfl
    · rwa [List.append_nil]
    · rwa [← isFence_iff, isFence_append_newline, isFence_iff]
  have htail : ∃ others,
      Text.AreLines (['\n'].intercalate (closing :: rest))
        ((closing ++ if rest = [] then [] else ['\n']) :: others) ∧
      ['\n'].intercalate (closing :: rest) =
        (closing ++ if rest = [] then [] else ['\n']) ++ ['\n'].intercalate rest := by
    cases rest with
    | nil =>
      obtain ⟨ends, rfl, -⟩ := hclosing
      rw [List.intercalate_singleton, if_pos rfl, List.append_nil]
      exact ⟨[], .last (by simp) hclosingLine, (List.append_nil _).symm⟩
    | cons next more =>
      rw [if_neg (by simp), List.intercalate_cons_cons]
      refine ⟨Text.lines (['\n'].intercalate (next :: more)), ?_, rfl⟩
      rw [List.append_assoc]
      exact .cons hclosingLine (Text.areLines_lines _)
  obtain ⟨others, hlines, htext⟩ := htail
  have hwhole := areLines_flatMap_append
    (List.forall_mem_cons.2 ⟨hopeningLine, hinnerLines⟩) hlines
  rw [← intercalate_append_cons, List.cons_append] at hwhole
  have hblock : IsMetadataBlock (['\n'].intercalate (opening :: (inner ++ closing :: rest)))
      (opening ++ ['\n']) (inner.flatMap (· ++ ['\n']))
      (closing ++ if rest = [] then [] else ['\n']) (['\n'].intercalate rest) := by
    refine ⟨?_, ⟨inner.map (· ++ ['\n']), others, ?_, List.flatMap_def, ?_⟩,
      hends hopening (.inr rfl), hends hclosing ?_⟩
    · rw [← List.cons_append, intercalate_append_cons, htext, List.flatMap_cons]
      simp only [List.append_assoc]
    · simpa using hwhole
    · rw [List.forall_mem_map]
      intro line hline
      rw [← isFence_eq_false_iff, isFence_append_newline, isFence_eq_false_iff]
      exact hinner line hline
    · split
      · exact .inl rfl
      · exact .inr rfl
  exact ⟨splitMetadata?_eq_some_iff.2 ⟨_, _, hblock⟩, hblock⟩

/-! ## Lines with empty lines between them -/

theorem intersperse_append_cons (line : List Char) (before after : List (List Char)) :
    (before ++ line :: after).intersperse [] =
      before.flatMap (fun line ↦ [line, []]) ++ (line :: after).intersperse [] := by
  induction before with
  | nil => rfl
  | cons first others ih =>
    rw [List.flatMap_cons, List.append_assoc, ← ih]
    cases others with
    | nil => rfl
    | cons next more => rfl

theorem intersperse_cons (line : List Char) (rest : List (List Char)) :
    (line :: rest).intersperse [] =
      line :: if rest = [] then [] else [] :: rest.intersperse [] := by
  cases rest with
  | nil => rfl
  | cons next more => rfl

/-- Empty lines between the others are not taken for a fence, and hide none. -/
theorem any_isFence_intersperse (parts : List (List Char)) :
    (parts.intersperse []).any isFence = parts.any isFence := by
  induction parts with
  | nil => rfl
  | cons line others ih =>
    rw [intersperse_cons, List.any_cons, List.any_cons]
    split
    · next hempty => rw [hempty]
    · rw [List.any_cons, ih]
      rfl

theorem isSome_splitLines?_intersperse (parts : List (List Char)) :
    (splitLines? (parts.intersperse [])).isSome = (splitLines? parts).isSome := by
  cases parts with
  | nil => rfl
  | cons opening rest =>
    have hany := any_isFence_intersperse (opening :: rest)
    rw [intersperse_cons] at hany ⊢
    rw [isSome_splitLines?_cons, isSome_splitLines?_cons]
    split
    · next hempty => rw [hempty]
    · rw [List.any_cons, any_isFence_intersperse]
      rfl

theorem IsBlock.intersperse (h : IsBlock parts opening inner closing rest) :
    IsBlock (parts.intersperse []) opening ([] :: inner.flatMap fun line ↦ [line, []]) closing
      (if rest = [] then [] else [] :: rest.intersperse []) where
  parts_eq := by
    rw [h.parts_eq, intersperse_cons, if_neg (by simp), intersperse_append_cons, intersperse_cons]
    rfl
  opening := h.opening
  closing := h.closing
  inner := by
    have hempty : ¬IsFence [] := isFence_eq_false_iff.1 (by decide)
    refine List.forall_mem_cons.2 ⟨hempty, fun line hline ↦ ?_⟩
    obtain ⟨inside, hinside, hline⟩ := List.mem_flatMap.1 hline
    simp only [List.mem_cons, List.not_mem_nil, or_false] at hline
    rcases hline with rfl | rfl
    · exact h.inner line hinside
    · exact hempty

end Joined

/-! ## The ways to store lines -/

namespace TextLines

/-- The fragments are the lines, without line feeds. -/
def ofLines (ls : List String) : TextLines := ⟨ls⟩

/-- Every line but the last one with a line feed at its end. -/
def endLines : List String → List String
  | [] => []
  | [last] => [last]
  | line :: next :: more => (line ++ "\n") :: endLines (next :: more)

/-- The fragments are the lines, with their line feeds. -/
def ofEndedLines (ls : List String) : TextLines := ⟨endLines ls⟩

/-- All lines are one fragment. -/
def ofText (ls : List String) : TextLines := ⟨["\n".intercalate ls]⟩

theorem toList_join_ofLines (ls : List String) :
    ((ofLines ls).join "\n").toList = ['\n'].intercalate (ls.map String.toList) := by
  rw [join, String.toList_intercalate]
  rfl

theorem toList_join_ofText (ls : List String) :
    ((ofText ls).join "\n").toList = ['\n'].intercalate (ls.map String.toList) := by
  rw [join, String.toList_intercalate, ofText, List.map_singleton, List.intercalate_singleton,
    String.toList_intercalate]
  rfl

/-- A line feed at the end of a line and one between the lines have an empty line between them. -/
theorem toList_join_ofEndedLines (ls : List String) :
    ((ofEndedLines ls).join "\n").toList =
      ['\n'].intercalate ((ls.map String.toList).intersperse []) := by
  rw [join, String.toList_intercalate, ofEndedLines]
  change ['\n'].intercalate ((endLines ls).map String.toList) = _
  induction ls with
  | nil => rfl
  | cons line others ih =>
    cases others with
    | nil => rfl
    | cons next more =>
      have hne : (endLines (next :: more)).map String.toList ≠ [] := by
        cases more <;> simp [endLines]
      have hne' : ((next :: more).map String.toList).intersperse [] ≠ [] := by
        rw [List.map_cons, intersperse_cons]
        exact List.cons_ne_nil _ _
      rw [endLines, List.map_cons, List.intercalate_cons_of_ne_nil hne, ih,
        List.map_cons (l := next :: more), intersperse_cons, if_neg (by simp),
        List.intercalate_cons_cons, List.intercalate_cons_of_ne_nil hne', String.toList_append]
      simp

end TextLines

section Stored

variable {ls : List String} {inner rest : List (List Char)} {opening closing : List Char}

theorem not_mem_of_mem_map_toList (hls : ∀ l ∈ ls, '\n' ∉ l.toList) :
    ∀ line ∈ ls.map String.toList, '\n' ∉ line :=
  List.forall_mem_map.2 hls

theorem not_mem_of_mem_intersperse {parts : List (List Char)} (h : ∀ line ∈ parts, '\n' ∉ line) :
    ∀ line ∈ parts.intersperse [], '\n' ∉ line := by
  induction parts with
  | nil => exact h
  | cons line others ih =>
    obtain ⟨hline, hothers⟩ := List.forall_mem_cons.1 h
    rw [intersperse_cons]
    refine List.forall_mem_cons.2 ⟨hline, ?_⟩
    split
    · exact List.forall_mem_nil _
    · exact List.forall_mem_cons.2 ⟨List.not_mem_nil, ih hothers⟩

/-- The empty lines of the metadata stand behind the opening fence and behind each of its lines. -/
theorem findsMetadata_ofEndedLines (h : IsBlock (ls.map String.toList) opening inner closing rest)
    (hls : ∀ l ∈ ls, '\n' ∉ l.toList) :
    FindsMetadata ((TextLines.ofEndedLines ls).join "\n").toList (opening ++ ['\n'])
      ('\n' :: inner.flatMap (· ++ ['\n', '\n'])) (closing ++ if rest = [] then [] else ['\n'])
      (if rest = [] then [] else
        '\n' :: ((TextLines.ofEndedLines (rest.map String.ofList)).join "\n").toList) := by
  have hfinds := findsMetadata_intercalate h.intersperse
    (not_mem_of_mem_intersperse (not_mem_of_mem_map_toList hls))
  have hinner : ([] :: inner.flatMap fun line ↦ [line, []]).flatMap (· ++ ['\n']) =
      '\n' :: inner.flatMap (· ++ ['\n', '\n']) := by
    rw [List.flatMap_cons, List.flatMap_assoc]
    simp
  have hrest : (rest.map String.ofList).map String.toList = rest := by simp
  rw [TextLines.toList_join_ofEndedLines, TextLines.toList_join_ofEndedLines, hrest, ← hinner]
  cases rest with
  | nil => exact hfinds
  | cons next more =>
    have hne : (next :: more).intersperse ([] : List Char) ≠ [] := by
      rw [intersperse_cons]
      exact List.cons_ne_nil _ _
    simp only [if_neg (List.cons_ne_nil next more), if_neg (List.cons_ne_nil [] _),
      List.intercalate_cons_of_ne_nil hne] at hfinds ⊢
    exact hfinds

/-- The three ways to store lines agree on the block at their start. Without line feeds, and as one
text, the block is found at its lines. With line feeds it is found at the same lines, with an empty
line more behind the opening fence, behind each line of the metadata, and behind the closing fence
if lines follow it. -/
theorem findsMetadata_of_stored_lines (ls : List String) (hls : ∀ l ∈ ls, '\n' ∉ l.toList) :
    (∀ source ∈ [TextLines.ofLines ls, TextLines.ofEndedLines ls, TextLines.ofText ls],
      (splitMetadata? (source.join "\n").toList).isSome ↔
        ∃ opening inner closing rest,
          IsBlock (ls.map String.toList) opening inner closing rest) ∧
    ∀ opening inner closing rest, IsBlock (ls.map String.toList) opening inner closing rest →
      (∀ source ∈ [TextLines.ofLines ls, TextLines.ofText ls],
        FindsMetadata (source.join "\n").toList (opening ++ ['\n']) (inner.flatMap (· ++ ['\n']))
          (closing ++ if rest = [] then [] else ['\n']) (['\n'].intercalate rest)) ∧
      FindsMetadata ((TextLines.ofEndedLines ls).join "\n").toList (opening ++ ['\n'])
        ('\n' :: inner.flatMap (· ++ ['\n', '\n'])) (closing ++ if rest = [] then [] else ['\n'])
        (if rest = [] then [] else
          '\n' :: ((TextLines.ofEndedLines (rest.map String.ofList)).join "\n").toList) := by
  have hblock : (splitLines? (ls.map String.toList)).isSome ↔
      ∃ opening inner closing rest,
        IsBlock (ls.map String.toList) opening inner closing rest := by
    rw [Option.isSome_iff_exists]
    constructor
    · rintro ⟨⟨inner, rest⟩, hsplit⟩
      obtain ⟨opening, closing, h⟩ := splitLines?_eq_some_iff.1 hsplit
      exact ⟨opening, inner, closing, rest, h⟩
    · rintro ⟨opening, inner, closing, rest, h⟩
      exact ⟨(inner, rest), splitLines?_eq_some_iff.2 ⟨opening, closing, h⟩⟩
  constructor
  · simp only [List.mem_cons, List.not_mem_nil, or_false]
    rintro source (rfl | rfl | rfl)
    · rw [TextLines.toList_join_ofLines,
        isSome_splitMetadata?_intercalate (not_mem_of_mem_map_toList hls), hblock]
    · rw [TextLines.toList_join_ofEndedLines,
        isSome_splitMetadata?_intercalate
          (not_mem_of_mem_intersperse (not_mem_of_mem_map_toList hls)),
        isSome_splitLines?_intersperse, hblock]
    · rw [TextLines.toList_join_ofText,
        isSome_splitMetadata?_intercalate (not_mem_of_mem_map_toList hls), hblock]
  · intro opening inner closing rest h
    refine ⟨?_, findsMetadata_ofEndedLines h hls⟩
    have hfinds := findsMetadata_intercalate h (not_mem_of_mem_map_toList hls)
    simp only [List.mem_cons, List.not_mem_nil, or_false]
    rintro source (rfl | rfl)
    · rwa [TextLines.toList_join_ofLines]
    · rwa [TextLines.toList_join_ofText]

/-- A fence with a carriage return, an empty line, and a line behind the closing fence. -/
theorem findsMetadata_of_stored_lines_body :
    (∀ l ∈ ["---", "a: 1", "", "---\r", "x"], '\n' ∉ l.toList) ∧
      splitMetadata? "---\na: 1\n\n---\r\nx".toList = some ("a: 1\n\n".toList, "x".toList) ∧
      splitMetadata? "---\n\na: 1\n\n\n\n---\r\n\nx".toList =
        some ("\na: 1\n\n\n\n".toList, "\nx".toList) := by
  have hls : ∀ l ∈ ["---", "a: 1", "", "---\r", "x"], '\n' ∉ l.toList := by decide
  have hblock : IsBlock (["---", "a: 1", "", "---\r", "x"].map String.toList) "---".toList
      ["a: 1".toList, "".toList] "---\r".toList ["x".toList] := by
    refine ⟨by decide, isFence_iff.1 (by decide), isFence_iff.1 (by decide), ?_⟩
    exact fun line hline ↦ isFence_eq_false_iff.1
      ((by decide : ∀ line ∈ ["a: 1".toList, "".toList], isFence line = false) line hline)
  obtain ⟨hbare, hended⟩ := (findsMetadata_of_stored_lines _ hls).2 _ _ _ _ hblock
  exact ⟨hls, (hbare _ List.mem_cons_self).splitMetadata?_eq, hended.splitMetadata?_eq⟩

end Stored

end NotebookTree
