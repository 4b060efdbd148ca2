import NotebookTree.Notebook.Walk
import NotebookTree.Proofs.Frontmatter
import NotebookTree.Proofs.Outcome

/-!
# Isolation of cells

Compiling a notebook is a homomorphism: the containers of a sequence of cells are those of its
parts one after the other, and its metadata is that of the parts merged in order. So a cell that
cannot be compiled leaves its container empty and changes nothing else.
-/

namespace NotebookTree

open Outcome

namespace Notebook

theorem addCell_eq (options : CompileOptions) (w : Walk) (cell : Cell) :
    w.addCell options cell =
      ⟨w.cells ++ [(cell.render options).1], w.frontmatter.merge (cell.render options).2⟩ := rfl

/-- Going on from a compiled part adds what the rest gives by itself. -/
theorem foldl_addCell (options : CompileOptions) (w : Walk) (cells : List Cell) :
    cells.foldl (Walk.addCell options) w =
      ⟨w.cells ++ (walk options ⟨cells⟩).cells,
        w.frontmatter.merge (walk options ⟨cells⟩).frontmatter⟩ := by
  induction cells generalizing w with
  | nil => simp [walk, Frontmatter.merge_empty]
  | cons cell rest ih =>
    have hwalk : walk options ⟨cell :: rest⟩ =
        rest.foldl (Walk.addCell options) ((⟨[], .empty⟩ : Walk).addCell options cell) := rfl
    rw [hwalk, List.foldl_cons, ih (w.addCell options cell), ih]
    simp only [addCell_eq, Frontmatter.empty_merge, Frontmatter.merge_assoc, List.nil_append,
      List.append_assoc]

theorem cells_walk_append (options : CompileOptions) (first second : List Cell) :
    (walk options ⟨first ++ second⟩).cells =
      (walk options ⟨first⟩).cells ++ (walk options ⟨second⟩).cells := by
  have h := foldl_addCell options (walk options ⟨first⟩) second
  rw [walk, walk, ← List.foldl_append] at h
  rw [walk, h]
  rfl

theorem frontmatter_walk_append (options : CompileOptions) (first second : List Cell) :
    (walk options ⟨first ++ second⟩).frontmatter =
      (walk options ⟨first⟩).frontmatter.merge (walk options ⟨second⟩).frontmatter := by
  have h := foldl_addCell options (walk options ⟨first⟩) second
  rw [walk, walk, ← List.foldl_append] at h
  rw [walk, h]
  rfl

theorem walk_singleton (options : CompileOptions) (cell : Cell) :
    walk options ⟨[cell]⟩ = ⟨[(cell.render options).1], (cell.render options).2⟩ := by
  have h : walk options ⟨[cell]⟩ = (⟨[], .empty⟩ : Walk).addCell options cell := rfl
  rw [h, addCell_eq, Frontmatter.empty_merge, List.nil_append]

/-- The containers of a notebook are those of its cells, each by itself. -/
theorem cells_walk (options : CompileOptions) (cells : List Cell) :
    (walk options ⟨cells⟩).cells = cells.map fun cell ↦ (cell.render options).1 := by
  induction cells with
  | nil => rfl
  | cons cell rest ih =>
    rw [← List.singleton_append, cells_walk_append, walk_singleton, ih]
    rfl

end Notebook

/-! ## Failures -/

theorem Cell.render_markdown_of_error {options : CompileOptions} {source : TextLines}
    {error : CompileError} (h : compileProse options (source.join "\n") = .error error) :
    (Cell.markdown source).render options =
      (Container.cell [Container.markdownSource []], .empty) := by
  simp only [Cell.render, h]
  rfl

theorem Output.render_of_error {options : CompileOptions} {output : Output} {error : CompileError}
    (h : Html.compileFragment options.maxNestingDepth (output.mimeText mimeHtml) = .error error) :
    output.render options = Container.output [] (output.mimeText mimePlain) := by
  simp only [Output.render, h]
  rfl

namespace Notebook

/-- A notebook is compiled cell by cell, and a failure concerns one cell or one output alone. -/
theorem walk_isolates_cells (options : CompileOptions) (before after : List Cell) (cell : Cell) :
    (∃ container, (walk options ⟨[cell]⟩).cells = [container] ∧
      (walk options ⟨before ++ [cell] ++ after⟩).cells =
        (walk options ⟨before⟩).cells ++ [container] ++ (walk options ⟨after⟩).cells) ∧
    (walk options ⟨before ++ [cell] ++ after⟩).frontmatter =
      ((walk options ⟨before⟩).frontmatter.merge (walk options ⟨[cell]⟩).frontmatter).merge
        (walk options ⟨after⟩).frontmatter ∧
    (∀ source error, cell = .markdown source →
      compileProse options (source.join "\n") = .error error →
      (walk options ⟨before ++ [cell] ++ after⟩).cells =
        (walk options ⟨before⟩).cells ++ [Container.cell [Container.markdownSource []]] ++
          (walk options ⟨after⟩).cells ∧
      (walk options ⟨before ++ after⟩).cells =
        (walk options ⟨before⟩).cells ++ (walk options ⟨after⟩).cells ∧
      (walk options ⟨before ++ [cell] ++ after⟩).frontmatter =
        (walk options ⟨before ++ after⟩).frontmatter) ∧
    (∀ source earlier output later error, cell = .code source (earlier ++ [output] ++ later) →
      Html.compileFragment options.maxNestingDepth (output.mimeText mimeHtml) = .error error →
      (walk options ⟨[cell]⟩).cells =
        [Container.cell (Container.codeSource (source.join "\n") ::
          (earlier.map (Output.render options) ++
            [Container.output [] (output.mimeText mimePlain)] ++
            later.map (Output.render options)))] ∧
      (walk options ⟨[.code source (earlier ++ later)]⟩).cells =
        [Container.cell (Container.codeSource (source.join "\n") ::
          (earlier.map (Output.render options) ++ later.map (Output.render options)))] ∧
      (walk options ⟨[cell]⟩).frontmatter = .empty) := by
  have hcells : (walk options ⟨before ++ [cell] ++ after⟩).cells =
      (walk options ⟨before⟩).cells ++ [(cell.render options).1] ++
        (walk options ⟨after⟩).cells := by
    rw [cells_walk_append, cells_walk_append, walk_singleton]
  have hfrontmatter : (walk options ⟨before ++ [cell] ++ after⟩).frontmatter =
      ((walk options ⟨before⟩).frontmatter.merge (walk options ⟨[cell]⟩).frontmatter).merge
        (walk options ⟨after⟩).frontmatter := by
    rw [frontmatter_walk_append, frontmatter_walk_append]
  refine ⟨⟨(cell.render options).1, by rw [walk_singleton], hcells⟩, hfrontmatter, ?_, ?_⟩
  · rintro source error rfl herror
    have hrender := Cell.render_markdown_of_error herror
    refine ⟨?_, cells_walk_append options before after, ?_⟩
    · rw [hcells, hrender]
    · rw [hfrontmatter, frontmatter_walk_append, walk_singleton, hrender]
      rfl
  · rintro source earlier output later error rfl herror
    have hrender := Output.render_of_error herror
    refine ⟨?_, ?_, ?_⟩
    · rw [walk_singleton]
      simp only [Cell.render, List.map_append, List.map_cons, List.map_nil, hrender]
    · rw [walk_singleton]
      simp only [Cell.render, List.map_append]
    · rw [walk_singleton]
      rfl

/-- A quotation inside another one. -/
def nestedQuotes : TextLines := ⟨["> > x"]⟩

/-- An output whose markup nests two levels. -/
def nestedOutput : Output := ⟨none, [(mimeHtml, ⟨["<i><i>x"]⟩), (mimePlain, ⟨["x"]⟩)]⟩

theorem walk_isolates_nestedQuotes_nestedOutput :
    (∃ error, compileProse { maxNestingDepth := 1 } (nestedQuotes.join "\n") = .error error) ∧
    (∃ error, Html.compileFragment 1 (nestedOutput.mimeText mimeHtml) = .error error) ∧
    (walk { maxNestingDepth := 1 } ⟨[.other] ++ [.markdown nestedQuotes] ++ [.other]⟩).cells =
      (walk { maxNestingDepth := 1 } ⟨[.other]⟩).cells ++
        [Container.cell [Container.markdownSource []]] ++
        (walk { maxNestingDepth := 1 } ⟨[.other]⟩).cells ∧
    (walk { maxNestingDepth := 1 }
        ⟨[.other] ++ [.markdown nestedQuotes] ++ [.other]⟩).frontmatter =
      (walk { maxNestingDepth := 1 } ⟨[.other] ++ [.other]⟩).frontmatter ∧
    (walk { maxNestingDepth := 1 } ⟨[.code ⟨["1"]⟩ ([] ++ [nestedOutput] ++ [.empty])]⟩).cells =
      [Container.cell [Container.codeSource "1", Container.output [] "x",
        Output.render { maxNestingDepth := 1 } .empty]] := by
  have hprose : (compileProse { maxNestingDepth := 1 } (nestedQuotes.join "\n")).isOk = false := by
    decide +kernel
  have houtput : (Html.compileFragment 1 (nestedOutput.mimeText mimeHtml)).isOk = false := by
    decide +kernel
  obtain ⟨proseError, hprose⟩ := exists_eq_error hprose
  obtain ⟨outputError, houtput⟩ := exists_eq_error houtput
  obtain ⟨-, -, hmarkdown, -⟩ := walk_isolates_cells { maxNestingDepth := 1 } [.other] [.other]
    (.markdown nestedQuotes)
  obtain ⟨-, -, -, hcode⟩ := walk_isolates_cells { maxNestingDepth := 1 } [] []
    (.code ⟨["1"]⟩ ([] ++ [nestedOutput] ++ [.empty]))
  obtain ⟨hcells, -, hfrontmatter⟩ := hmarkdown _ _ rfl hprose
  obtain ⟨houtputs, -, -⟩ := hcode _ [] _ [.empty] _ rfl houtput
  exact ⟨⟨_, hprose⟩, ⟨_, houtput⟩, hcells, hfrontmatter, houtputs⟩

end Notebook

end NotebookTree
