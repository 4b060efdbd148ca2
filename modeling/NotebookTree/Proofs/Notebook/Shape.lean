import Mathlib.Data.List.Forall2
import NotebookTree.Content
import NotebookTree.Proofs.Notebook.Isolation

/-!
# The shape of a compiled notebook

A JSON object or array is compiled to a root with one container for each element of its `cells`.
Every container has one of three shapes, whatever the element is and whether or not its contents
compile; `CellShape` and `OutputShape` spell them out down to the tags and classes.
-/

namespace NotebookTree

/-! ## What is read -/

/-- The elements of the cells of a notebook. -/
def cellValues : Json → List Json
  | .object entries =>
    match Json.Object.get? entries "cells" with
    | some (.array items) => items
    | _ => []
  | _ => []

/-- The elements of the outputs of a cell, which may also be a list of its fields in order. -/
def outputValues : Json → List Json
  | .object entries =>
    match Json.Object.get? entries "outputs" with
    | some (.array items) => items
    | _ => []
  | .array [_, _, .array items] => items
  | _ => []

theorem listField_eq (field : Option Json) :
    Json.listField field = match field with
      | some (.array items) => items
      | _ => [] := by
  rcases field with _ | value
  · rfl
  · cases value <;> rfl

theorem cells_ofJson (value : Json) :
    (Notebook.ofJson value).cells = (cellValues value).map Cell.ofJson := by
  cases value with
  | object entries => simp only [Notebook.ofJson, cellValues, listField_eq]
  | _ => rfl

/-- The third field of a cell holds its outputs, in both of its forms. -/
theorem listField_eq_outputValues {value : Json} {kind source outputs : Option Json}
    (h : value.fields? ["cell_type", "source", "outputs"] = some [kind, source, outputs]) :
    Json.listField outputs = outputValues value := by
  cases value with
  | object entries =>
    simp only [Json.fields?, List.map_cons, List.map_nil, Option.some.injEq, List.cons.injEq,
      and_true] at h
    obtain ⟨-, -, rfl⟩ := h
    rw [listField_eq]
    rfl
  | array items =>
    match items, h with
    | [], h => cases h; rfl
    | [_], h => cases h; rfl
    | [_, _], h => cases h; rfl
    | [_, _, third], h =>
      cases h
      cases third <;> rfl
    | _ :: _ :: _ :: _ :: _, h => simp [Json.fields?] at h
  | _ => cases h

/-- The outputs of a cell read as code are the elements of its outputs, each read by itself. -/
theorem outputs_of_ofJson_eq_code {value : Json} {source : TextLines} {outputs : List Output}
    (h : Cell.ofJson value = .code source outputs) :
    outputs = (outputValues value).map Output.ofJson := by
  unfold Cell.ofJson at h
  split at h
  · next kind lines results hfields =>
    split at h
    · cases h
    · injection h with _ houtputs
      rw [← houtputs, listField_eq_outputValues hfields]
    · cases h
  · cases h

/-! ## What is given -/

/-- An element with a class and nothing else. -/
def division (name : String) (children : List Node) : Node :=
  .element "div" (Attributes.ofList [("class", name)]) children

end NotebookTree
