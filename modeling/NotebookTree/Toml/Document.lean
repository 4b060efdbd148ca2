import NotebookTree.Toml.Statement

/-!
# TOML documents

`Toml.parse?` gives the entries of the table that a text is. The assignments after a header go to
its table, and those before the first header to the outermost one. A table has one header at most;
a table that the dots of keys have made has none.
-/

namespace NotebookTree.Toml

/-- A table of a text: its header and the assignments under it. -/
structure Section where
  key : Key
  /-- Is the table one of an array of tables? -/
  isElement : Bool
  assignments : List (Key × Toml)
  deriving Inhabited

/-- The assignments before the first header, and the tables with a header. -/
def sections : List Statement → List (Key × Toml) × List Section
  | [] => ([], [])
  | .blank :: rest => sections rest
  | .assignment key value :: rest =>
    let (first, more) := sections rest
    ((key, value) :: first, more)
  | .header key :: rest =>
    let (first, more) := sections rest
    ([], ⟨key, false, first⟩ :: more)
  | .elementHeader key :: rest =>
    let (first, more) := sections rest
    ([], ⟨key, true, first⟩ :: more)

/-- Adds a table with a header to the outermost table. -/
def addSection? (root : Entries) (s : Section) : Option Entries :=
  within? false
    (fun _ entries ↦
      match s.isElement, entries.lookup s.key.name with
      | false, none => do
        return entries ++ [(s.key.name, table .header (← assignAll? [] s.assignments))]
      | false, some (table .implied inner) => do
        return entries.set s.key.name (table .header (← assignAll? inner s.assignments))
      | true, none => do
        return entries ++ [(s.key.name, tables [← assignAll? [] s.assignments])]
      | true, some (tables items) => do
        return entries.set s.key.name (tables (items ++ [← assignAll? [] s.assignments]))
      | _, _ => none)
    .header s.key.parents root

/-- The entries of the table that statements are. -/
def ofStatements? (statements : List Statement) : Option Entries := do
  let (first, more) := sections statements
  more.foldlM addSection? (← assignAll? [] first)

/-- Drops a byte order mark. -/
def dropByteOrderMark : List Char → List Char
  | '\ufeff' :: rest => rest
  | chars => chars

/-- Reads a text as a table. -/
def parse? (text : List Char) : Option Entries :=
  statements? (dropByteOrderMark text) >>= ofStatements?

end NotebookTree.Toml
