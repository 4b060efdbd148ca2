/-!
# Errors of the compilers

A `CompileError` says why a piece of a document, such as a cell or an output, could not be
compiled. Such an error concerns that piece alone.
-/

namespace NotebookTree

/-- Why a piece of a document could not be compiled. -/
inductive CompileError where
  /-- The parts of a document are nested wrongly. -/
  | markdown (reason : String)
  /-- The leading block is no readable metadata. -/
  | frontmatter (reason : String)
  /-- Raw markup has swallowed a part of the document around it. -/
  | html (reason : String)
  /-- Elements are nested deeper than the limit. -/
  | tooDeep (limit : Nat)
  deriving DecidableEq, Inhabited

/-- The text of the error. -/
def CompileError.message : CompileError → String
  | markdown reason => "markdown error: " ++ reason
  | frontmatter reason => "frontmatter error: " ++ reason
  | html reason => "html error: " ++ reason
  | tooDeep limit => "nesting depth exceeds limit of " ++ toString limit

end NotebookTree
