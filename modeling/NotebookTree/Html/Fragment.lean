import NotebookTree.CompileError
import NotebookTree.Html.Modes
import NotebookTree.Node.Basic

/-!
# Compiling a fragment of HTML

`compileFragment` turns the nodes of an HTML fragment into document nodes. Elements and texts are
kept; comments and the contents of templates are dropped. A fragment with an element nested deeper
than the limit is refused.

Where two attributes of an element differ only in their qualifier, the qualified one is kept.
-/

namespace NotebookTree

namespace Html

/-- The attributes of an element by their names without qualifiers. -/
def attributesOf (attributes : List Attribute) : Attributes :=
  let entries (keep : Attribute → Bool) : List (String × String) :=
    (attributes.filter keep).map fun a ↦ (a.name, a.value)
  Attributes.ofList (entries (·.qualifier.isNone) ++ entries (·.qualifier.isSome))

mutual

/-- Lowers a node that stands at the given depth. -/
def lowerNode (limit depth : Nat) : HtmlNode → Except CompileError (List Node)
  | .text value => .ok [.text value]
  | .element name attributes children =>
    if limit < depth then .error (.tooDeep limit)
    else do
      let children ← lowerNodes limit (depth + 1) children
      return [.element name.name (attributesOf attributes) children]
  | .comment => .ok []
  | .contents _ => .ok []

/-- Lowers nodes that stand at the given depth. -/
def lowerNodes (limit depth : Nat) : List HtmlNode → Except CompileError (List Node)
  | [] => .ok []
  | node :: rest => do
    let first ← lowerNode limit depth node
    let others ← lowerNodes limit depth rest
    return first ++ others

end

/-- Compiles a fragment of HTML whose elements may nest `limit` levels. -/
def compileFragment (limit : Nat) (html : String) : Except CompileError (List Node) :=
  if html.isEmpty then .ok [] else lowerNodes limit 1 (parseFragment html)

end Html

end NotebookTree
