import NotebookTree.Node.Basic

/-!
# Containers

The elements around the parts of a notebook. Each has a class that names it, and is there also if
it has no contents.
-/

namespace NotebookTree.Container

/-- An element with a class. -/
def ofClass (name : String) (children : List Node) : Node :=
  ((Node.ofTag "div").withClass name).withChildren children

/-- The container of a cell. -/
def cell (children : List Node) : Node := ofClass "cell" children

/-- The container of the contents of a prose cell. -/
def markdownSource (children : List Node) : Node := ofClass "source markdown" children

/-- The container of the source of a code cell, which is left as it is. -/
def codeSource (source : String) : Node :=
  ofClass "source code"
    [(Node.ofTag "pre").withChildren [(Node.ofTag "code").withChildren [.text source]]]

/-- The container of an output: its markup and its plain text. -/
def output (markup : List Node) (plain : String) : Node :=
  ofClass "output" [ofClass "text html" markup, ofClass "text plain" [.text plain]]

end NotebookTree.Container
