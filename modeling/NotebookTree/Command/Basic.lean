import NotebookTree.Configuration.Basic

/-!
# Commands

What the program can be asked to do.
-/

namespace NotebookTree

/-- A request to compile a notebook and print its record. -/
structure ParseRequest where
  /-- The path of the notebook. -/
  path : String
  /-- The identifier of the record, which is the path if none is given. -/
  id : Option String
  /-- The format, which the configuration says if none is given. -/
  format : Option OutputFormat
  /-- Is the text of the notebook passed on as a text? -/
  raw : Bool
  /-- Is JSON written on one line? -/
  compact : Bool
  deriving DecidableEq, Inhabited

/-- The identifier of the record. -/
def ParseRequest.recordId (r : ParseRequest) : String := r.id.getD r.path

/-- What the program does. -/
inductive Command where
  | parse (request : ParseRequest)
  /-- Writes the default configuration. -/
  | initConfiguration
  /-- Prints the configuration. -/
  | showConfiguration
  deriving DecidableEq, Inhabited

end NotebookTree
