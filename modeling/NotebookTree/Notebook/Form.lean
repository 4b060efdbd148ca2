import NotebookTree.Json.Printer
import NotebookTree.Notebook.Basic

/-!
# Reading notebooks

Any JSON value reads as a notebook. A value of the wrong shape counts as absent: what should be a
cell is then a cell without contents, and what should be an output is an empty one. Cells and
outputs may also be written as lists of their fields in order, where fields at the end may be left
out.
-/

namespace NotebookTree

namespace TextLines

/-- The text of one fragment. A value that is no string is written as JSON, and null is empty. -/
def fragment : Json → String
  | .string s => s
  | .null => ""
  | value => value.compact

/-- Reads a text: a list of fragments, or a single one. -/
def ofJson : Json → TextLines
  | .array items => ⟨items.map fragment⟩
  | .null => ⟨[]⟩
  | value => ⟨[fragment value]⟩

/-- Reads a text that may be absent. -/
def ofField (field : Option Json) : TextLines := (field.map ofJson).getD ⟨[]⟩

end TextLines

/-- The fields of a value that are given by name, or as a list in the order of the names. Nothing
if the value is neither, or if the list is too long. -/
def Json.fields? (names : List String) : Json → Option (List (Option Json))
  | .object entries => some (names.map (Json.Object.get? entries ·))
  | .array items =>
    if names.length < items.length then none
    else some (items.map some ++ List.replicate (names.length - items.length) none)
  | _ => none

/-- A field as a string, if it is one. -/
def Json.stringField? : Option Json → Option String
  | some (.string s) => some s
  | _ => none

/-- A field as a list, which is empty if it is none. -/
def Json.listField : Option Json → List Json
  | some (.array items) => items
  | _ => []

namespace Output

/-- Reads the texts of an output by media type. -/
def dataOfField : Option Json → List (String × TextLines)
  | some (.object entries) => entries.map fun entry ↦ (entry.1, TextLines.ofJson entry.2)
  | _ => []

/-- Reads an output. -/
def ofJson (value : Json) : Output :=
  match value.fields? ["output_type", "data"] with
  | some [kind, data] => ⟨Json.stringField? kind, dataOfField data⟩
  | _ => empty

end Output

namespace Cell

/-- Reads a cell. -/
def ofJson (value : Json) : Cell :=
  match value.fields? ["cell_type", "source", "outputs"] with
  | some [kind, source, outputs] =>
    match Json.stringField? kind with
    | some "markdown" => markdown (.ofField source)
    | some "code" => code (.ofField source) ((Json.listField outputs).map Output.ofJson)
    | _ => other
  | _ => other

end Cell

/-- Reads a notebook. A value that is no object has no cells. -/
def Notebook.ofJson : Json → Notebook
  | .object entries => ⟨(Json.listField (Json.Object.get? entries "cells")).map Cell.ofJson⟩
  | _ => ⟨[]⟩

end NotebookTree
