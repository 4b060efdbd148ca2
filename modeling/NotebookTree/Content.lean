import NotebookTree.Json.Parser
import NotebookTree.Notebook.Form
import NotebookTree.Notebook.Walk
import NotebookTree.Record

/-!
# Contents of sources

`Content.parse` makes the record of a source. Structured contents are a notebook and are compiled.
A text is JSON, which is passed on as it is. Everything else has an empty record. Sources are told
by the extension of their path.
-/

namespace NotebookTree

/-- How the contents of a source are processed. -/
inductive Content where
  | nothing
  | json (value : Json)
  | notebook (notebook : Notebook)
  deriving Inhabited

namespace Content

/-- Tells how contents are processed. -/
def classify : Option Json → Content
  | some (.string text) =>
    match Json.parse? text with
    | some .null | none => nothing
    | some value => json value
  | some (.object entries) => notebook (.ofJson (.object entries))
  | some (.array items) => notebook (.ofJson (.array items))
  | some _ | none => nothing

/-- The record of a source. -/
def parse (options : CompileOptions) (id : String) (content : Option Json) : Record :=
  match classify content with
  | nothing => .empty id
  | json value => .ofJson id value
  | notebook n =>
    let walk := n.walk options
    .ofTree id walk.root walk.frontmatter

/-! ## Paths -/

/-- The name under which notebooks are registered. -/
def name : String := "ipynb"

/-- The extensions of notebooks. -/
def extensions : List String := [".ipynb"]

/-- The last component of a path. Slashes and single dots at the end do not count, and two dots are
no name. -/
def fileName? (path : String) : Option String :=
  match (((path.splitOn "/").filter fun part ↦ !part.isEmpty && part != ".").getLast?) with
  | some ".." | none => none
  | some name => some name

/-- The extension of a file name: what stands after its last dot, which is not its first
character. -/
def extension? (name : String) : Option String :=
  let after := (name.toList.reverse.takeWhile (· != '.')).reverse
  let before := name.length - after.length
  if before ≤ 1 then none else some (String.ofList after)

/-- Is the path that of a notebook? -/
def handles (path : String) : Bool :=
  match fileName? path >>= extension? with
  | none => false
  | some extension =>
    extensions.any fun known ↦
      Text.lowerAsciiString known == Text.lowerAsciiString ("." ++ extension)

end Content

end NotebookTree
