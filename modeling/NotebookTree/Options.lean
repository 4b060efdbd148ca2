/-!
# Options of the compilers

`CompileOptions` says which extensions of Markdown are known and how deep elements may nest. The
defaults are plain Markdown with metadata blocks. Of the options, Markdown is read with the
`Extensions` alone.
-/

namespace NotebookTree

/-- The nesting limit that holds unless another one is configured. -/
def defaultNestingDepth : Nat := 512

/-- How Markdown and HTML are compiled. -/
structure CompileOptions where
  /-- Is a leading block between two lines of dashes metadata? -/
  frontmatter : Bool := true
  tables : Bool := false
  strikethrough : Bool := false
  tasklists : Bool := false
  footnotes : Bool := false
  /-- May a heading end in its attributes? -/
  headingAttributes : Bool := false
  /-- The greatest depth of elements. -/
  maxNestingDepth : Nat := defaultNestingDepth
  deriving DecidableEq, Inhabited

/-- The extensions that Markdown is read with. -/
structure Markdown.Extensions where
  tables : Bool
  strikethrough : Bool
  tasklists : Bool
  footnotes : Bool
  /-- May a heading end in its attributes? -/
  headingAttributes : Bool
  deriving DecidableEq, Inhabited

/-- The extensions of Markdown that are known. -/
def CompileOptions.extensions (options : CompileOptions) : Markdown.Extensions where
  tables := options.tables
  strikethrough := options.strikethrough
  tasklists := options.tasklists
  footnotes := options.footnotes
  headingAttributes := options.headingAttributes

end NotebookTree
