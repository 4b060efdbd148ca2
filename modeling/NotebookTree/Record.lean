import NotebookTree.Frontmatter
import NotebookTree.Json.Printer
import NotebookTree.Node.Form

/-!
# Records

What a content pipeline gets for a source: an identifier, a body and metadata. The body is a JSON
value or a document tree. In its JSON form the metadata stands beside the fields of the record
itself, whose names metadata cannot take.
-/

namespace NotebookTree

/-- The body of a record. -/
inductive Body where
  | json (value : Json)
  | tree (root : Node)
  deriving Inhabited

/-- The kind of a body. -/
inductive ContentType where
  | json
  | markdown
  deriving DecidableEq, Inhabited

/-- The name of a kind. -/
def ContentType.name : ContentType → String
  | json => "json"
  | markdown => "markdown"

/-- The kind of a body. -/
def Body.contentType : Body → ContentType
  | json _ => .json
  | tree _ => .markdown

/-- The JSON form of a body. -/
def Body.toJson : Body → Json
  | json value => value
  | tree root => root.toJson

/-- A record of a content pipeline. -/
structure Record where
  id : String
  body : Body
  frontmatter : Frontmatter
  deriving Inhabited

namespace Record

/-- A record of a JSON value. -/
def ofJson (id : String) (value : Json) : Record := ⟨id, .json value, .empty⟩

/-- A record of an empty object. -/
def empty (id : String) : Record := ofJson id (.object [])

/-- A record of a document. -/
def ofTree (id : String) (root : Node) (frontmatter : Frontmatter) : Record :=
  ⟨id, .tree root, frontmatter⟩

/-- The tree of a record of a document. -/
def tree? (r : Record) : Option Node :=
  match r.body with
  | .tree root => some root
  | .json _ => none

/-- The names that metadata cannot take. -/
def reservedKeys : List String := ["id", "type", "body"]

/-- The entries of the JSON form of a record. -/
def entries (r : Record) : Json.Object :=
  r.frontmatter.entries.filter (fun entry ↦ !reservedKeys.contains entry.1) ++
    [("id", .string r.id), ("type", .string r.body.contentType.name), ("body", r.body.toJson)]

/-- The JSON form of a record. -/
def toJson (r : Record) : Json := .object r.entries

end Record

end NotebookTree
