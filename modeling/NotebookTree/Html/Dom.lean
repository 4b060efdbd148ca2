import NotebookTree.Html.Token

/-!
# Trees of HTML

`HtmlNode` is the tree that HTML markup denotes: elements of three vocabularies, texts, comments,
and the contents of templates, which are set apart from ordinary children.

`Dom` is such a tree under construction. Its elements carry numbers, so that they can be found
again and moved, and the children of an element stand with the newest first. Two texts are never
put side by side: a text is added to the text next to it.
-/

namespace NotebookTree.Html

/-- The vocabularies of elements. -/
inductive Vocabulary where
  | html
  | svg
  | mathml
  deriving DecidableEq, Inhabited

/-- The name of an element. -/
structure ElementName where
  vocabulary : Vocabulary
  name : String
  deriving DecidableEq, Inhabited

/-- An attribute of an element. In SVG and MathML some names have a qualifier before a colon. -/
structure Attribute where
  qualifier : Option String
  name : String
  value : String
  deriving DecidableEq, Inhabited

/-- A node of an HTML document. -/
inductive HtmlNode where
  | element (name : ElementName) (attributes : List Attribute) (children : List HtmlNode)
  | text (value : String)
  | comment
  /-- The contents of a template. -/
  | contents (children : List HtmlNode)
  deriving Inhabited

/-- A node of an HTML document under construction. -/
inductive Dom where
  | element (id : Nat) (name : ElementName) (attributes : List Attribute) (children : List Dom)
  | text (value : List Char)
  | comment
  | contents (id : Nat) (children : List Dom)
  deriving Inhabited

namespace Dom

/-- Adds a node before the others of a list that has the newest first. -/
def push (node : Dom) (children : List Dom) : List Dom :=
  match node, children with
  | text more, text before :: rest => text (before ++ more) :: rest
  | node, children => node :: children

mutual

/-- Changes the children of the element with the given number. Nothing if there is no such
element. -/
def update? (id : Nat) (change : List Dom → List Dom) : Dom → Option Dom
  | element n name attributes children =>
    if n = id then some (element n name attributes (change children))
    else (updateFirst? id change children).map (element n name attributes)
  | contents n children =>
    if n = id then some (contents n (change children))
    else (updateFirst? id change children).map (contents n)
  | _ => none

/-- Changes the children of the element with the given number below one of the nodes. -/
def updateFirst? (id : Nat) (change : List Dom → List Dom) : List Dom → Option (List Dom)
  | [] => none
  | node :: rest =>
    match update? id change node with
    | some node => some (node :: rest)
    | none => (updateFirst? id change rest).map (node :: ·)

end

mutual

/-- Puts a node before the element with the given number. Nothing if there is no such element
below the tree. -/
def insertBefore? (id : Nat) (new : Dom) : Dom → Option Dom
  | element n name attributes children =>
    (insertBeforeFirst? id new children).map (element n name attributes)
  | contents n children => (insertBeforeFirst? id new children).map (contents n)
  | _ => none

/-- Puts a node before the element with the given number among or below the nodes. -/
def insertBeforeFirst? (id : Nat) (new : Dom) : List Dom → Option (List Dom)
  | [] => none
  | node :: rest =>
    let here := match node with
      | element n _ _ _ => n == id
      | _ => false
    if here then some (node :: push new rest)
    else
      match insertBefore? id new node with
      | some node => some (node :: rest)
      | none => (insertBeforeFirst? id new rest).map (node :: ·)

end

mutual

/-- Takes the element with the given number out of a tree: the element and what is left. -/
def detach? (id : Nat) : Dom → Option (Dom × Dom)
  | element n name attributes children =>
    (detachFirst? id children).map fun (found, rest) ↦ (found, element n name attributes rest)
  | contents n children =>
    (detachFirst? id children).map fun (found, rest) ↦ (found, contents n rest)
  | _ => none

/-- Takes the element with the given number out of a list of trees. -/
def detachFirst? (id : Nat) : List Dom → Option (Dom × List Dom)
  | [] => none
  | node :: rest =>
    let here := match node with
      | element n _ _ _ => n == id
      | _ => false
    if here then some (node, rest)
    else
      match detach? id node with
      | some (found, node) => some (found, node :: rest)
      | none => (detachFirst? id rest).map fun (found, rest) ↦ (found, node :: rest)

end

mutual

/-- The finished tree. -/
def finish : Dom → HtmlNode
  | element _ name attributes children => .element name attributes (finishAll children [])
  | text value => .text (String.ofList value)
  | comment => .comment
  | contents _ children => .contents (finishAll children [])

/-- The finished trees of a list that has the newest first, before the given ones. -/
def finishAll : List Dom → List HtmlNode → List HtmlNode
  | [], after => after
  | node :: rest, after => finishAll rest (finish node :: after)

end

end Dom

end NotebookTree.Html
