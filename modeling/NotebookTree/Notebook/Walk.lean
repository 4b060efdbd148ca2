import NotebookTree.Notebook.Basic
import NotebookTree.Notebook.Container
import NotebookTree.Prose.Compile

/-!
# From notebooks to trees

`Notebook.walk` compiles the cells of a notebook in order. Each cell becomes one container, and the
metadata of the cells is merged. A cell or an output that cannot be compiled is left empty and does
not affect the others.
-/

namespace NotebookTree

/-- A compiled notebook. -/
structure Walk where
  /-- The containers of the cells. -/
  cells : List Node
  frontmatter : Frontmatter
  deriving Inhabited

/-- The tree of a compiled notebook. -/
def Walk.root (w : Walk) : Node := .root w.cells

/-- The container of an output. -/
def Output.render (options : CompileOptions) (o : Output) : Node :=
  let markup := Html.compileFragment options.maxNestingDepth (o.mimeText mimeHtml)
  Container.output (markup.toOption.getD []) (o.mimeText mimePlain)

/-- The container of a cell, and the metadata in it. -/
def Cell.render (options : CompileOptions) : Cell → Node × Frontmatter
  | markdown source =>
    let prose := (compileProse options (source.join "\n")).toOption.getD .empty
    (Container.cell [Container.markdownSource prose.nodes], prose.frontmatter)
  | code source outputs =>
    (Container.cell
      (Container.codeSource (source.join "\n") :: outputs.map (Output.render options)), .empty)
  | other => (Container.cell [], .empty)

/-- Adds a cell to a compiled notebook. -/
def Walk.addCell (options : CompileOptions) (w : Walk) (cell : Cell) : Walk :=
  let (node, frontmatter) := cell.render options
  ⟨w.cells ++ [node], w.frontmatter.merge frontmatter⟩

/-- Compiles a notebook. -/
def Notebook.walk (options : CompileOptions) (notebook : Notebook) : Walk :=
  notebook.cells.foldl (Walk.addCell options) ⟨[], .empty⟩

end NotebookTree
