import NotebookTree.Frontmatter
import NotebookTree.Markdown.Document
import NotebookTree.Options
import NotebookTree.Prose.Assembly
import NotebookTree.Prose.Lowering
import NotebookTree.Prose.Metadata
import NotebookTree.Yaml.Document

/-!
# Compiling prose

`compileProse` compiles a Markdown text to document nodes and the metadata at its start. Metadata
that is unreadable makes the whole text fail; metadata that is no mapping counts as none.
-/

namespace NotebookTree

/-- A compiled Markdown text. -/
structure Prose where
  nodes : List Node
  frontmatter : Frontmatter
  deriving Inhabited

namespace Prose

/-- Nothing. -/
def empty : Prose := ⟨[], .empty⟩

/-- Reads the metadata between the fences. -/
def readMetadata (text : List Char) : Except CompileError Frontmatter :=
  match Yaml.parse? text with
  | none => .error (.frontmatter "the metadata is not valid YAML")
  | some value =>
    match value.toJson? with
    | none => .error (.frontmatter "a key of the metadata is not text")
    | some (.object entries) => .ok (.ofObject entries)
    | some _ => .ok .empty

/-- The metadata at the start of a text and the text after it. -/
def splitFrontmatter (options : CompileOptions) (text : String) :
    Except CompileError (Frontmatter × String) :=
  match if options.frontmatter then splitMetadata? text.toList else none with
  | none => .ok (.empty, text)
  | some (metadata, body) => do
    let frontmatter ← readMetadata metadata
    return (frontmatter, String.ofList body)

end Prose

/-- Compiles a Markdown text. -/
def compileProse (options : CompileOptions) (text : String) : Except CompileError Prose := do
  let (frontmatter, body) ← Prose.splitFrontmatter options text
  let drafts ← Draft.ofEvents options.maxNestingDepth (Markdown.events options body)
  let nodes ← Draft.lowerAll options.maxNestingDepth drafts
  return ⟨nodes, frontmatter⟩

end NotebookTree
