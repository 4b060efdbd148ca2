/-!
# Events of a Markdown text

A Markdown text is read as a sequence of events: constructs open and close, and between that stand
texts, code, raw markup, breaks and a few other leaves. A closing event names only the kind of its
construct. Constructs and leaves of extensions that are never known have no meaning of their own.
-/

namespace NotebookTree.Markdown

/-- How the cells of a table column are aligned. -/
inductive Alignment where
  | unspecified
  | left
  | center
  | right
  deriving DecidableEq, Inhabited

/-- A construct that has contents. -/
inductive Construct where
  | paragraph
  | heading (level : Nat) (id : Option String) (classes : List String)
      (extra : List (String × Option String))
  | blockQuote
  /-- A code block, with the text after its fence if it has one. -/
  | codeBlock (info : Option String)
  | htmlBlock
  /-- A list, with its first number if it is numbered. -/
  | list (start : Option Nat)
  | item
  | footnoteDefinition (label : String)
  | table (alignments : List Alignment)
  | tableHead
  | tableRow
  | tableCell
  | emphasis
  | strong
  | strikethrough
  | link (destination title : String)
  | image (destination title : String)
  /-- A construct of an extension that is never known. -/
  | other
  deriving DecidableEq, Inhabited

/-- The kind of a construct. -/
inductive ConstructKind where
  | paragraph
  | heading
  | blockQuote
  | codeBlock
  | htmlBlock
  | list
  | item
  | footnoteDefinition
  | table
  | tableHead
  | tableRow
  | tableCell
  | emphasis
  | strong
  | strikethrough
  | link
  | image
  | other
  deriving DecidableEq, Inhabited

/-- The kind of a construct. -/
def Construct.kind : Construct → ConstructKind
  | paragraph => .paragraph
  | heading .. => .heading
  | blockQuote => .blockQuote
  | codeBlock _ => .codeBlock
  | htmlBlock => .htmlBlock
  | list _ => .list
  | item => .item
  | footnoteDefinition _ => .footnoteDefinition
  | table _ => .table
  | tableHead => .tableHead
  | tableRow => .tableRow
  | tableCell => .tableCell
  | emphasis => .emphasis
  | strong => .strong
  | strikethrough => .strikethrough
  | link .. => .link
  | image .. => .image
  | other => .other

/-- An event of a Markdown text. -/
inductive Event where
  | start (construct : Construct)
  | stop (kind : ConstructKind)
  | text (value : String)
  | code (value : String)
  /-- A line of a block of raw markup. -/
  | html (value : String)
  /-- Raw markup inside a text. -/
  | inlineHtml (value : String)
  | footnoteReference (label : String)
  | softBreak
  | hardBreak
  | rule
  | taskMarker (checked : Bool)
  /-- A formula, of an extension that is never known. -/
  | formula (value : String)
  deriving DecidableEq, Inhabited

/-- The events inside a construct, with those that open and close it. -/
def Construct.around (construct : Construct) (inner : List Event) : List Event :=
  .start construct :: (inner ++ [.stop construct.kind])

end NotebookTree.Markdown
