/-!
# TOML values

A TOML text is a table. A table remembers how it was written, as this decides what a later line of
the same text may add to it: nothing may be added to a table between braces, and each table has at
most one header.
-/

namespace NotebookTree

/-- How a table was written. -/
inductive Toml.Origin where
  /-- Under a header of its own. -/
  | header
  /-- As a part of a longer header. -/
  | implied
  /-- By the dots of a key. -/
  | dotted
  /-- Between braces. -/
  | inline
  deriving DecidableEq, Inhabited

/-- A TOML value. -/
inductive Toml where
  | string (value : String)
  | integer (value : Int)
  | real (value : Float)
  | bool (value : Bool)
  /-- A date, a time or both, as written. -/
  | dateTime (text : String)
  | array (items : List Toml)
  | table (origin : Toml.Origin) (entries : List (String × Toml))
  /-- The tables under headers in double brackets. -/
  | tables (items : List (List (String × Toml)))
  deriving Inhabited

namespace Toml

/-- The entries of a table, no two of the same key. -/
abbrev Entries := List (String × Toml)

/-- Sets the value of a key. A key that is present keeps its place, a new one goes to the end. -/
def Entries.set (key : String) (value : Toml) : Entries → Entries
  | [] => [(key, value)]
  | (k, v) :: rest => if k = key then (k, value) :: rest else (k, v) :: Entries.set key value rest

end Toml

end NotebookTree
