import NotebookTree.Node.Basic

/-!
# Nodes as HTML markup

`renderHtml` writes a list of nodes as HTML. Roots are transparent. Void elements have no closing
tag and their children are not written. Text is escaped, except directly inside `script` and
`style`, where HTML knows no escapes.
-/

namespace NotebookTree.Node

/-- The elements that never have a closing tag. -/
def voidTags : List String :=
  ["area", "base", "br", "col", "embed", "hr", "img", "input", "link", "meta", "source", "track",
    "wbr"]

/-- The elements whose text is written as it is. -/
def rawTextTags : List String := ["script", "style"]

/-- One character of a text. -/
def escapedTextChar (c : Char) : List Char :=
  if c = '&' then ['&', 'a', 'm', 'p', ';']
  else if c = '<' then ['&', 'l', 't', ';']
  else if c = '>' then ['&', 'g', 't', ';']
  else [c]

/-- One character of an attribute value. -/
def escapedValueChar (c : Char) : List Char :=
  if c = '&' then ['&', 'a', 'm', 'p', ';']
  else if c = '"' then ['&', 'q', 'u', 'o', 't', ';']
  else [c]

/-- A text with its markup characters escaped. -/
def escapeText (text : List Char) : List Char :=
  text.flatMap escapedTextChar

/-- One attribute with the blank before it. -/
def attributeChars (entry : String × String) : List Char :=
  ' ' :: entry.1.toList ++ '=' :: '"' :: entry.2.toList.flatMap escapedValueChar ++ ['"']

/-- An opening tag. -/
def openTag (tag : String) (attributes : Attributes) : List Char :=
  '<' :: tag.toList ++ attributes.entries.flatMap attributeChars ++ ['>']

/-- A closing tag. -/
def closeTag (tag : String) : List Char :=
  '<' :: '/' :: tag.toList ++ ['>']

mutual

/-- The markup of one node. Inside raw text a text is written as it is. -/
def markup (rawText : Bool) : Node → List Char
  | root nodes => markups false nodes
  | text value => if rawText then value.toList else escapeText value.toList
  | element tag attributes nodes =>
    if tag ∈ voidTags then openTag tag attributes
    else openTag tag attributes ++ markups (tag ∈ rawTextTags) nodes ++ closeTag tag

/-- The markup of the nodes of a list. -/
def markups (rawText : Bool) : List Node → List Char
  | [] => []
  | node :: rest => markup rawText node ++ markups rawText rest

end

/-- A list of nodes as HTML. -/
def renderHtml (nodes : List Node) : String :=
  String.ofList (markups false nodes)

end NotebookTree.Node
