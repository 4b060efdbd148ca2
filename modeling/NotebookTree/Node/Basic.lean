import NotebookTree.Node.Attributes

/-!
# Document trees

A `Node` is the unit of the compiled document: a root, an element with a tag and attributes, or a
text. Roots group nodes and have no markup of their own. `textContent` concatenates all texts
below a node in document order.
-/

namespace NotebookTree

/-- A node of a compiled document. -/
inductive Node where
  | root (children : List Node)
  | element (tag : String) (attributes : Attributes) (children : List Node)
  | text (value : String)
  deriving Inhabited

namespace Node

/-- An element without attributes and children. -/
def ofTag (tag : String) : Node := element tag .empty []

/-- Sets an attribute of an element. Roots and texts stay as they are. -/
def withAttribute (node : Node) (name value : String) : Node :=
  match node with
  | element tag attributes children => element tag (attributes.insert name value) children
  | other => other

/-- Sets the class of an element. -/
def withClass (node : Node) (value : String) : Node :=
  node.withAttribute "class" value

/-- Replaces the children of a root or an element. A text stays as it is. -/
def withChildren (node : Node) (nodes : List Node) : Node :=
  match node with
  | root _ => root nodes
  | element tag attributes _ => element tag attributes nodes
  | text value => text value

/-- The children of a node; a text has none. -/
def children : Node → List Node
  | root nodes => nodes
  | element _ _ nodes => nodes
  | text _ => []

/-- The tag of an element. -/
def tag? : Node → Option String
  | element tag _ _ => some tag
  | _ => none

/-- The value of an attribute of an element. -/
def attribute? (node : Node) (name : String) : Option String :=
  match node with
  | element _ attributes _ => attributes.get? name
  | _ => none

/-- The class of an element. -/
def class? (node : Node) : Option String :=
  node.attribute? "class"

mutual

/-- All texts below a node, in document order. -/
def textContent : Node → String
  | text value => value
  | root nodes => textContents nodes
  | element _ _ nodes => textContents nodes

/-- All texts below the nodes of a list, in document order. -/
def textContents : List Node → String
  | [] => ""
  | node :: rest => textContent node ++ textContents rest

end

end Node

end NotebookTree
