import NotebookTree.Json.Basic
import NotebookTree.Node.Basic

/-!
# The JSON form of a node

A node is an object whose entry `type` names its kind. `Node.ofJson?` reads the form back: absent
`props` and `children` are empty, entries of other names are ignored, and an entry of the wrong
shape makes the whole value unreadable. A list of the kind and the fields in order is a second
form of a node, in which trailing fields with a default may be absent.

Below another node a kind may also be given by its number.
-/

namespace NotebookTree.Node

/-! ## Writing -/

/-- Attributes as an object of strings. -/
def attributesJson (attributes : Attributes) : Json :=
  .object (attributes.entries.map fun entry ↦ (entry.1, .string entry.2))

mutual

/-- The JSON form of a node. -/
def toJson : Node → Json
  | root nodes => .object [("type", .string "root"), ("children", .array (listJson nodes))]
  | element tag attributes nodes =>
    .object [("type", .string "element"), ("tag", .string tag),
      ("props", attributesJson attributes), ("children", .array (listJson nodes))]
  | text value => .object [("type", .string "text"), ("value", .string value)]

/-- The JSON forms of the nodes of a list. -/
def listJson : List Node → List Json
  | [] => []
  | node :: rest => toJson node :: listJson rest

end

/-! ## Reading -/

/-- The three kinds of nodes. -/
inductive Kind where
  | root
  | element
  | text

/-- The kind that a value names. Only a kind below another node may be a number. -/
def kind? (nested : Bool) : Json → Option Kind
  | .string "root" => some .root
  | .string "element" => some .element
  | .string "text" => some .text
  | .number (.integer n) =>
    if !nested then none
    else if n = 0 then some .root
    else if n = 1 then some .element
    else if n = 2 then some .text
    else none
  | _ => none

/-- Reads a string. -/
def string? : Json → Option String
  | .string s => some s
  | _ => none

/-- Reads an object of strings as attributes; an absent one is empty. -/
def attributes? : Option Json → Option Attributes
  | none => some .empty
  | some (.object entries) =>
    entries.foldlM (fun attributes entry ↦ do
      return attributes.insert entry.1 (← string? entry.2)) Attributes.empty
  | some _ => none

/-- Puts a node together from its fields, of which the children are already read. -/
def ofFields? (kind : Kind) (tag value props : Option Json)
    (children : Option (Option (List Node))) : Option Node :=
  match kind with
  | .root => return root (← children.getD (some []))
  | .element => do
    return element (← tag >>= string?) (← attributes? props) (← children.getD (some []))
  | .text => return text (← value >>= string?)

mutual

/-- Reads a node from its JSON form. -/
def ofJson? (nested : Bool) : Json → Option Node
  | .object entries => do
    let kind ← Json.Object.get? entries "type" >>= kind? nested
    ofFields? kind (Json.Object.get? entries "tag") (Json.Object.get? entries "value")
      (Json.Object.get? entries "props") (childrenField? entries)
  | .array [kind] => do
    ofFields? (← kind? nested kind) none none none none
  | .array [kind, first] => do
    match ← kind? nested kind with
    | .root => ofFields? .root none none none (some (childList? first))
    | .element => ofFields? .element (some first) none none none
    | .text => ofFields? .text none (some first) none none
  | .array [kind, tag, props] => do
    match ← kind? nested kind with
    | .element => ofFields? .element (some tag) none (some props) none
    | _ => none
  | .array [kind, tag, props, children] => do
    match ← kind? nested kind with
    | .element => ofFields? .element (some tag) none (some props) (some (childList? children))
    | _ => none
  | _ => none

/-- The nodes of the entry `children`: nothing if it is absent, and the failure to read it if it
is there and unreadable. -/
def childrenField? : List (String × Json) → Option (Option (List Node))
  | [] => none
  | (key, value) :: rest =>
    if key == "children" then some (childList? value) else childrenField? rest

/-- Reads a list of nodes below another node. -/
def childList? : Json → Option (List Node)
  | .array items => childItems? items
  | _ => none

/-- Reads the items of a list of nodes below another node. -/
def childItems? : List Json → Option (List Node)
  | [] => some []
  | item :: rest => do
    let node ← ofJson? true item
    let nodes ← childItems? rest
    return node :: nodes

end

/-- Reads a list of nodes that stand below no other node. -/
def forest? : Json → Option (List Node)
  | .array items => items.mapM (ofJson? false)
  | _ => none

end NotebookTree.Node
