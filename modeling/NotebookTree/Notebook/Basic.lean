/-!
# Notebooks

A notebook is a list of cells. A cell holds prose, or code with its outputs; any other cell has no
contents. An output holds texts of different media types. Each text is a list of fragments.
-/

namespace NotebookTree

/-- A text in fragments, which need not be lines. -/
structure TextLines where
  lines : List String
  deriving DecidableEq, Inhabited

namespace TextLines

/-- The fragments with a separator between them. -/
def join (t : TextLines) (separator : String) : String :=
  separator.intercalate t.lines

/-- The fragments one after the other. -/
def concat (t : TextLines) : String := String.join t.lines

/-- Are there no fragments? -/
def isEmpty (t : TextLines) : Bool := t.lines.isEmpty

end TextLines

/-- A result of running a code cell. -/
structure Output where
  /-- What kind of result it is, which has no bearing on the document. -/
  kind : Option String
  /-- Its texts by media type. -/
  data : List (String × TextLines)
  deriving DecidableEq, Inhabited

namespace Output

/-- An output that says nothing. -/
def empty : Output := ⟨none, []⟩

/-- The text of a media type, which is empty if there is none. -/
def mimeText (o : Output) (mime : String) : String :=
  ((o.data.lookup mime).map TextLines.concat).getD ""

end Output

/-- The media type of markup in outputs. -/
def mimeHtml : String := "text/html"

/-- The media type of plain text in outputs. -/
def mimePlain : String := "text/plain"

/-- A cell of a notebook. -/
inductive Cell where
  | markdown (source : TextLines)
  | code (source : TextLines) (outputs : List Output)
  | other
  deriving DecidableEq, Inhabited

/-- A notebook. -/
structure Notebook where
  cells : List Cell
  deriving DecidableEq, Inhabited

end NotebookTree
