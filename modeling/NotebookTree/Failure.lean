import NotebookTree.Text.Quoted

/-!
# Failures of the program

A `Failure` says why the program could not do what it was asked to do. Unlike an error of the
compilers it concerns the whole run.
-/

namespace NotebookTree

/-- Why a run of the program fails. -/
inductive Failure where
  /-- The configuration cannot be read. -/
  | config (reason : String)
  /-- A value has the right type and is still not allowed. -/
  | validation (reason : String)
  /-- A file or directory cannot be read or written. -/
  | io (path reason : String)
  /-- A notebook is no JSON text. -/
  | notJson (path : String)
  deriving DecidableEq, Inhabited

/-- The text of the failure. -/
def Failure.message : Failure → String
  | config reason => "config error: " ++ reason
  | validation reason => "validation error: " ++ reason
  | io path reason => "I/O error at " ++ Text.quoted path ++ ": " ++ reason
  | notJson path => path ++ " is not valid JSON (use --raw to pass it through)"

end NotebookTree
