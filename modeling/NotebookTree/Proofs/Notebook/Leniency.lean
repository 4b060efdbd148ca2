import NotebookTree.Proofs.Frontmatter
import NotebookTree.Proofs.Notebook.Shape

/-!
# Values of the wrong shape

A notebook is read without failures: what has the wrong shape counts as absent.
`Notebook.ofJson_of_wrong_shapes` says how far that goes. Two things are read although their shape
is wrong. A source that is a number, a boolean or an object is read as the line that its JSON text
is, and a list in place of a cell or an output is read as the object of its items in order.
-/

namespace NotebookTree

namespace Json

/-- Is it null? -/
def isNull : Json → Bool
  | null => true
  | _ => false

/-- Is it a string? -/
def isString : Json → Bool
  | string _ => true
  | _ => false

/-- Is it a list? -/
def isArray : Json → Bool
  | array _ => true
  | _ => false

/-- Is it an object? -/
def isObject : Json → Bool
  | object _ => true
  | _ => false

namespace Object

variable {key other : String} {value : Json} {entries : Json.Object}

/-- An object without the entries of a key. -/
def erase (key : String) (entries : Json.Object) : Json.Object :=
  entries.filter (·.1 != key)

theorem get?_erase_self (key : String) (entries : Json.Object) :
    get? (erase key entries) key = none := by
  have hfind : (erase key entries).find? (·.1 == key) = none := by
    rw [List.find?_eq_none]
    intro entry hmem
    have hne := (List.mem_filter.1 hmem).2
    simpa using hne
  rw [get?, hfind, Option.map_none]

theorem get?_erase_of_ne (h : other ≠ key) (entries : Json.Object) :
    get? (erase key entries) other = get? entries other := by
  have hfind : (erase key entries).find? (·.1 == other) = entries.find? (·.1 == other) := by
    rw [erase, List.find?_filter]
    congr 1
    funext entry
    by_cases hother : entry.1 = other
    · simp [hother, h]
    · simp [hother]
  rw [get?, get?, hfind]

end Object

end Json

/-! ## Fields of a cell -/

namespace Cell

variable {key : String} {field : Json} {fields : Json.Object}

/-- The fields that a cell is read from. -/
def fieldNames : List String := ["cell_type", "source", "outputs"]

/-- Has a field of a cell another shape than it should have? -/
def isMisshapen (key : String) (field : Json) : Bool :=
  (key == "cell_type" && !field.isString) ||
    (key == "source" && !field.isString && !field.isArray) ||
    (key == "outputs" && !field.isArray)

/-- The fields of a cell with a misshapen one among them put right: a source is replaced by its JSON
text unless it is null, and anything else is taken out. -/
def mended (key : String) (field : Json) (fields : Json.Object) : Json.Object :=
  if key = "source" ∧ !field.isNull then Json.Object.insert key (.string field.compact) fields
  else Json.Object.erase key fields

/-- A cell is read from three of its fields. -/
theorem ofJson_congr {other : Json.Object}
    (hkind : Json.stringField? (Json.Object.get? fields "cell_type") =
      Json.stringField? (Json.Object.get? other "cell_type"))
    (hsource : TextLines.ofField (Json.Object.get? fields "source") =
      TextLines.ofField (Json.Object.get? other "source"))
    (houtputs : Json.listField (Json.Object.get? fields "outputs") =
      Json.listField (Json.Object.get? other "outputs")) :
    ofJson (.object fields) = ofJson (.object other) := by
  simp only [ofJson, Json.fields?, List.map_cons, List.map_nil, hkind, hsource, houtputs]

theorem ofField_of_not_isNull (hstring : field.isString = false) (harray : field.isArray = false)
    (hnull : field.isNull = false) :
    TextLines.ofField (some field) = TextLines.ofField (some (.string field.compact)) := by
  cases field with
  | null => cases hnull
  | string s => cases hstring
  | array items => cases harray
  | bool value => rfl
  | number n => rfl
  | object entries => rfl

/-- A misshapen field makes no difference once it is put right. -/
theorem ofJson_mended (hfield : Json.Object.get? fields key = some field)
    (hshape : isMisshapen key field = true) :
    ofJson (.object (mended key field fields)) = ofJson (.object fields) := by
  simp only [isMisshapen, Bool.or_eq_true, Bool.and_eq_true, beq_iff_eq,
    Bool.not_eq_true'] at hshape
  rcases hshape with (⟨rfl, hstring⟩ | ⟨⟨rfl, hstring⟩, harray⟩) | ⟨rfl, harray⟩
  · rw [mended, if_neg (by simp)]
    apply ofJson_congr
    · rw [Json.Object.get?_erase_self, hfield]
      cases field <;> first | rfl | cases hstring
    · rw [Json.Object.get?_erase_of_ne (by decide)]
    · rw [Json.Object.get?_erase_of_ne (by decide)]
  · by_cases hnull : field.isNull = true
    · rw [mended, if_neg (by simp [hnull])]
      apply ofJson_congr
      · rw [Json.Object.get?_erase_of_ne (by decide)]
      · rw [Json.Object.get?_erase_self, hfield]
        cases field <;> first | rfl | cases hnull
      · rw [Json.Object.get?_erase_of_ne (by decide)]
    · rw [Bool.not_eq_true] at hnull
      rw [mended, if_pos (by simp [hnull])]
      apply ofJson_congr
      · rw [Json.Object.get?_insert_of_ne (by decide)]
      · rw [Json.Object.get?_insert_self, hfield]
        exact (ofField_of_not_isNull hstring harray hnull).symm
      · rw [Json.Object.get?_insert_of_ne (by decide)]
  · rw [mended, if_neg (by simp)]
    apply ofJson_congr
    · rw [Json.Object.get?_erase_of_ne (by decide)]
    · rw [Json.Object.get?_erase_of_ne (by decide)]
    · rw [Json.Object.get?_erase_self, hfield]
      cases field <;> first | rfl | cases harray

end Cell

/-! ## Lists in place of objects -/

theorem Json.map_get?_zip {names : List String} (h : names.Nodup) (items : List Json) :
    names.map (Object.get? (names.zip items) ·) =
      (items.take names.length).map some ++ List.replicate (names.length - items.length) none := by
  induction names generalizing items with
  | nil => simp
  | cons name rest ih =>
    obtain ⟨hname, hrest⟩ := List.nodup_cons.1 h
    cases items with
    | nil => simp [Object.get?, List.replicate_succ, List.map_const']
    | cons item items =>
      have hskip : rest.map (Object.get? ((name, item) :: rest.zip items) ·) =
          rest.map (Object.get? (rest.zip items) ·) := by
        refine List.map_congr_left fun other hother ↦ ?_
        have hne : name ≠ other := fun heq ↦ hname (heq ▸ hother)
        simp [Object.get?, hne]
      have hself : Object.get? ((name, item) :: rest.zip items) name = some item := by
        simp [Object.get?]
      rw [List.zip_cons_cons, List.map_cons, hself, hskip, ih hrest]
      simp

/-- A list is read as the object of its items in the order of the fields. -/
theorem Json.fields?_array_of_le (names : List String) (h : names.Nodup) {items : List Json}
    (hlength : items.length ≤ names.length) :
    fields? names (.array items) = fields? names (.object (names.zip items)) := by
  rw [fields?, fields?, if_neg (Nat.not_lt.2 hlength), map_get?_zip h,
    List.take_of_length_le hlength]

/-- A list that is longer than the fields is not read. -/
theorem Json.fields?_array_of_lt (names : List String) {items : List Json}
    (hlength : names.length < items.length) : fields? names (.array items) = none :=
  if_pos hlength

/-- What is neither an object nor a list has no fields. -/
theorem Json.fields?_eq_none {value : Json} (names : List String) (hobject : ¬value.isObject)
    (harray : ¬value.isArray) : fields? names value = none := by
  cases value with
  | object entries => exact absurd rfl hobject
  | array items => exact absurd rfl harray
  | _ => rfl

theorem Cell.ofJson_of_not_isObject {value : Json} (hobject : ¬value.isObject)
    (harray : ¬value.isArray) : ofJson value = other := by
  rw [ofJson, Json.fields?_eq_none _ hobject harray]

theorem Cell.ofJson_array (items : List Json) :
    ofJson (.array items) =
      if items.length ≤ 3 then ofJson (.object (fieldNames.zip items)) else other := by
  by_cases hlength : items.length ≤ 3
  · have hfields := Json.fields?_array_of_le fieldNames (by decide) hlength
    rw [if_pos hlength, ofJson, ofJson, ← fieldNames, hfields]
  · have hfields := Json.fields?_array_of_lt fieldNames (Nat.lt_of_not_le hlength)
    rw [if_neg hlength, ofJson, ← fieldNames, hfields]

namespace Output

/-- The fields that an output is read from. -/
def fieldNames : List String := ["output_type", "data"]

theorem ofJson_of_not_isObject {value : Json} (hobject : ¬value.isObject)
    (harray : ¬value.isArray) : ofJson value = empty := by
  rw [ofJson, Json.fields?_eq_none _ hobject harray]

theorem ofJson_array (items : List Json) :
    ofJson (.array items) =
      if items.length ≤ 2 then ofJson (.object (fieldNames.zip items)) else empty := by
  by_cases hlength : items.length ≤ 2
  · have hfields := Json.fields?_array_of_le fieldNames (by decide) hlength
    rw [if_pos hlength, ofJson, ofJson, ← fieldNames, hfields]
  · have hfields := Json.fields?_array_of_lt fieldNames (Nat.lt_of_not_le hlength)
    rw [if_neg hlength, ofJson, ← fieldNames, hfields]

theorem data_ofJson_of_not_isObject {fields : Json.Object} {data : Json}
    (hdata : Json.Object.get? fields "data" = some data) (hobject : ¬data.isObject) :
    (ofJson (.object fields)).data = [] := by
  simp only [ofJson, Json.fields?, List.map_cons, List.map_nil, hdata]
  cases data with
  | object entries => exact absurd rfl hobject
  | _ => rfl

end Output

/-! ## Whole notebooks -/

namespace Notebook

/-- The entries of a notebook with another value in place of one of its cells. -/
def withCell (entries : Json.Object) (index : Nat) (value : Json) : Json.Object :=
  Json.Object.insert "cells" (.array ((cellValues (.object entries)).set index value)) entries

theorem cellValues_withCell (entries : Json.Object) (index : Nat) (value : Json) :
    cellValues (.object (withCell entries index value)) =
      (cellValues (.object entries)).set index value := by
  rw [cellValues, withCell, Json.Object.get?_insert_self]

/-- A cell may be replaced by one that is read in the same way. -/
theorem ofJson_withCell {entries : Json.Object} {index : Nat} {value other : Json}
    (hvalue : (cellValues (.object entries))[index]? = some value)
    (hcell : Cell.ofJson other = Cell.ofJson value) :
    ofJson (.object (withCell entries index other)) = ofJson (.object entries) := by
  have hcells : (ofJson (.object (withCell entries index other))).cells =
      (ofJson (.object entries)).cells := by
    obtain ⟨hlength, rfl⟩ := List.getElem?_eq_some_iff.1 hvalue
    rw [cells_ofJson, cells_ofJson, cellValues_withCell, List.map_set, hcell, ← List.map_set,
      List.set_getElem_self]
  exact congrArg Notebook.mk hcells

theorem getElem?_cells_ofJson {entries : Json.Object} {index : Nat} {value : Json}
    (hvalue : (cellValues (.object entries))[index]? = some value) :
    (ofJson (.object entries)).cells[index]? = some (Cell.ofJson value) := by
  rw [cells_ofJson, List.getElem?_map, hvalue, Option.map_some]

/-- How a notebook with a value of the wrong shape is read, be it a field of a cell, a cell, an
output or the texts of an output. -/
theorem ofJson_of_wrong_shapes {entries : Json.Object} {index : Nat} {value : Json}
    (hvalue : (cellValues (.object entries))[index]? = some value) :
    (∀ (fields : Json.Object) (key : String) (field : Json), value = .object fields →
      Json.Object.get? fields key = some field → Cell.isMisshapen key field →
      ofJson (.object (withCell entries index (.object (Cell.mended key field fields)))) =
        ofJson (.object entries)) ∧
    (¬value.isObject → ¬value.isArray →
      (ofJson (.object entries)).cells[index]? = some .other) ∧
    (∀ items : List Json, value = .array items →
      (ofJson (.object entries)).cells[index]? =
        some (if items.length ≤ 3 then Cell.ofJson (.object (Cell.fieldNames.zip items))
          else .other)) ∧
    ∀ (source : TextLines) (outputs : List Output),
      (ofJson (.object entries)).cells[index]? = some (.code source outputs) →
      ∀ (place : Nat) (item : Json), (outputValues value)[place]? = some item →
        (¬item.isObject → ¬item.isArray → outputs[place]? = some .empty) ∧
        (∀ items : List Json, item = .array items →
          outputs[place]? =
            some (if items.length ≤ 2 then Output.ofJson (.object (Output.fieldNames.zip items))
              else .empty)) ∧
        ∀ (fields : Json.Object) (data : Json), item = .object fields →
          Json.Object.get? fields "data" = some data → ¬data.isObject →
          ∃ output, outputs[place]? = some output ∧ output.data = [] := by
  have hcell := getElem?_cells_ofJson hvalue
  refine ⟨?_, ?_, ?_, ?_⟩
  · rintro fields key field rfl hfield hshape
    exact ofJson_withCell hvalue (Cell.ofJson_mended hfield hshape)
  · intro hobject harray
    rw [hcell, Cell.ofJson_of_not_isObject hobject harray]
  · rintro items rfl
    rw [hcell, Cell.ofJson_array]
  · intro source outputs hcode place item hitem
    rw [hcell, Option.some.injEq] at hcode
    have houtput : outputs[place]? = some (Output.ofJson item) := by
      rw [outputs_of_ofJson_eq_code hcode, List.getElem?_map, hitem, Option.map_some]
    refine ⟨?_, ?_, ?_⟩
    · intro hobject harray
      rw [houtput, Output.ofJson_of_not_isObject hobject harray]
    · rintro items rfl
      rw [houtput, Output.ofJson_array]
    · rintro fields data rfl hdata hobject
      exact ⟨_, houtput, Output.data_ofJson_of_not_isObject hdata hobject⟩

/-- A code cell with a number for its source. Of its outputs one is null and one has a list for its
texts. -/
def misshapenCode : Json.Object :=
  [("cell_type", .string "code"), ("source", .int 7),
    ("outputs", .array [.null, .object [("data", .array [.string "x"])]])]

/-- A notebook with a cell of the wrong shape before that one. -/
def misshapenCells : Json.Object :=
  [("cells", .array [.int 42, .object misshapenCode])]

theorem ofJson_misshapenCells :
    (ofJson (.object misshapenCells)).cells[0]? = some .other ∧
    ofJson (.object (withCell misshapenCells 1
        (.object (Json.Object.insert "source" (.string "7") misshapenCode)))) =
      ofJson (.object misshapenCells) ∧
    ∃ outputs, (ofJson (.object misshapenCells)).cells[1]? = some (.code ⟨["7"]⟩ outputs) ∧
      outputs[0]? = some .empty ∧ ∃ output, outputs[1]? = some output ∧ output.data = [] := by
  have hfirst : (cellValues (.object misshapenCells))[0]? = some (.int 42) := rfl
  have hsecond : (cellValues (.object misshapenCells))[1]? = some (.object misshapenCode) := rfl
  have hcode : (ofJson (.object misshapenCells)).cells[1]? =
      some (.code ⟨["7"]⟩ [.empty, ⟨none, []⟩]) := by
    decide +kernel
  have hmended : Cell.mended "source" (.int 7) misshapenCode =
      Json.Object.insert "source" (.string "7") misshapenCode := rfl
  obtain ⟨-, hother, -, -⟩ := ofJson_of_wrong_shapes hfirst
  obtain ⟨hfield, -, -, houtputs⟩ := ofJson_of_wrong_shapes hsecond
  obtain ⟨hempty, -, -⟩ := houtputs _ _ hcode 0 .null rfl
  obtain ⟨-, -, hdata⟩ := houtputs _ _ hcode 1 (.object [("data", .array [.string "x"])]) rfl
  refine ⟨hother (by decide) (by decide), ?_, _, hcode, hempty (by decide) (by decide), ?_⟩
  · exact hmended ▸ hfield misshapenCode "source" (.int 7) rfl rfl (by decide)
  · exact hdata _ _ rfl rfl (by decide)

/-- A field of the wrong shape does not always count as absent: a number is read as a source. -/
theorem not_ofJson_withCell_erase :
    ¬∀ (entries : Json.Object) (index : Nat) (fields : Json.Object) (key : String) (field : Json),
      (cellValues (.object entries))[index]? = some (.object fields) →
      Json.Object.get? fields key = some field → Cell.isMisshapen key field →
      ofJson (.object (withCell entries index (.object (Json.Object.erase key fields)))) =
        ofJson (.object entries) := by
  intro h
  have hsame := h misshapenCells 1 misshapenCode "source" (.int 7) rfl rfl (by decide)
  revert hsame
  decide +kernel

end Notebook

end NotebookTree
