import NotebookTree.Markdown.Event
import NotebookTree.Markdown.Item

/-!
# Blocks

The blocks of a Markdown text: paragraphs, headings and other leaves, whose text is still a list of
items, and the containers around them. The children of a container keep their positions.
-/

namespace NotebookTree.Markdown

/-- The attributes at the end of a heading. -/
structure HeadingAttributes where
  id : Option String
  classes : List String
  extra : List (String × Option String)
  deriving Inhabited

/-- The text of a leaf block: its items, and the position up to which it reaches. -/
structure LeafText where
  items : List Item
  stop : Nat
  deriving Inhabited

/-- A line of a block of raw markup: the spaces before it, and its text. -/
structure MarkupLine where
  indent : Nat
  pieces : List String
  deriving Inhabited

/-- A block of a Markdown text. -/
inductive Block where
  | paragraph (text : LeafText)
  | heading (level : Nat) (attributes : HeadingAttributes) (text : LeafText)
  | rule
  | code (info : Option String) (text : String)
  | html (lines : List MarkupLine)
  | table (alignments : List Alignment) (head : List LeafText) (rows : List (List LeafText))
  /-- The mark of a task that has no text. -/
  | task (checked : Bool)
  | quote (children : List (Placed Block))
  | list (tight : Bool) (start : Option Nat) (items : List (Placed Block))
  | item (indent : Nat) (children : List (Placed Block))
  | footnote (label : String) (children : List (Placed Block))
  deriving Inhabited

end NotebookTree.Markdown
