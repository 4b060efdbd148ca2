import Mathlib.Logic.Relation
import NotebookTree.Node.Form
import NotebookTree.Proofs.Html.Writing
import NotebookTree.Proofs.Notebook.Leniency

/-!
# Nodes through their JSON form

A node is read back from its JSON form. The form may be written more loosely: an entry `props` or
`children` that is empty may be left out, and entries that nodes of the kind do not have may be
added, at any node of the form. `Node.Loosens` is one such change. Reading does not see it,
whatever the value is (`Node.ofJson?_of_loosens`), so a node is also read back from all that any
number of changes make of its form: `Node.ofJson?_of_loosened`.
-/

namespace NotebookTree

namespace Json.Object

variable {name key : String} {value : Json} {before after : Json.Object}

/-- An entry of another name has no bearing on the value of a key. -/
theorem get?_append_cons_of_ne (h : name ≠ key) :
    get? (before ++ (name, value) :: after) key = get? (before ++ after) key := by
  have hfind : (before ++ (name, value) :: after).find? (·.1 == key) =
      (before ++ after).find? (·.1 == key) := by
    rw [List.find?_append, List.find?_append, List.find?_cons_of_neg (by simpa using h)]
  rw [get?, get?, hfind]

/-- What a function cannot tell apart may stand in place of each other. -/
theorem map_get?_append_cons {α : Type} {f : Json → α} {other : Json} (h : f value = f other) :
    (get? (before ++ (name, value) :: after) key).map f =
      (get? (before ++ (name, other) :: after) key).map f := by
  rw [get?, get?, List.find?_append, List.find?_append]
  cases before.find? (·.1 == key) with
  | some entry => rfl
  | none =>
    by_cases hname : name = key
    · simp [hname, h]
    · simp [hname]

end Json.Object

namespace Node

/-! ## Changes -/

/-- The names of the entries of nodes of a kind. -/
def Kind.fieldNames : Kind → List String
  | root => ["type", "children"]
  | element => ["type", "tag", "props", "children"]
  | text => ["type", "value"]

theorem Kind.type_mem_fieldNames (kind : Kind) : "type" ∈ kind.fieldNames := by
  cases kind <;> decide

/-- The kind that an object names. -/
def kindOf? (entries : Json.Object) : Option Kind :=
  Json.Object.get? entries "type" >>= kind? false

/-- A change to the JSON form of a node, at the node itself or at one below it, to a looser one. -/
inductive Loosens : Json → Json → Prop where
  /-- Empty attributes are left out. -/
  | dropProps {entries : Json.Object}
      (hempty : Json.Object.get? entries "props" = some (.object [])) :
      Loosens (.object entries) (.object (Json.Object.erase "props" entries))
  /-- An empty list of children is left out. -/
  | dropChildren {entries : Json.Object}
      (hempty : Json.Object.get? entries "children" = some (.array [])) :
      Loosens (.object entries) (.object (Json.Object.erase "children" entries))
  /-- An entry with an unknown name is added anywhere among the others. -/
  | add (before after : Json.Object) {kind : Kind} {name : String} (value : Json)
      (hkind : kindOf? (before ++ after) = some kind) (hname : name ∉ kind.fieldNames) :
      Loosens (.object (before ++ after)) (.object (before ++ (name, value) :: after))
  /-- The form of a child is changed. -/
  | inside (before after : Json.Object) (items more : List Json) {child changed : Json}
      (hchild : Loosens child changed) :
      Loosens (.object (before ++ ("children", .array (items ++ child :: more)) :: after))
        (.object (before ++ ("children", .array (items ++ changed :: more)) :: after))

/-! ## Reading -/

theorem kind?_of_kind? {json : Json} {kind : Kind} (nested : Bool)
    (h : kind? false json = some kind) : kind? nested json = some kind := by
  cases nested with
  | false => exact h
  | true =>
    unfold kind? at h ⊢
    split at h <;> simp_all

theorem childrenField?_eq (entries : Json.Object) :
    childrenField? entries = (Json.Object.get? entries "children").map childList? := by
  induction entries with
  | nil => rfl
  | cons entry rest ih =>
    obtain ⟨key, value⟩ := entry
    unfold childrenField? Json.Object.get?
    by_cases hkey : key = "children"
    · rw [hkey]
      rfl
    · have hnot : (key == "children") = false := beq_eq_false_iff_ne.2 hkey
      rw [List.find?_cons_of_neg (by simpa using hkey), hnot]
      exact ih

/-- An object is read from five of its entries. -/
theorem ofJson?_object (nested : Bool) (entries : Json.Object) :
    ofJson? nested (.object entries) =
      (Json.Object.get? entries "type" >>= kind? nested) >>= fun kind ↦
        ofFields? kind (Json.Object.get? entries "tag") (Json.Object.get? entries "value")
          (Json.Object.get? entries "props")
          ((Json.Object.get? entries "children").map childList?) := by
  rw [ofJson?, childrenField?_eq]

theorem childItems?_eq_mapM (items : List Json) :
    childItems? items = items.mapM (ofJson? true) := by
  induction items with
  | nil => rfl
  | cons item rest ih => rw [childItems?, ih, List.mapM_cons]

theorem childList?_append_cons {items more : List Json} {child other : Json}
    (h : ofJson? true child = ofJson? true other) :
    childList? (.array (items ++ child :: more)) =
      childList? (.array (items ++ other :: more)) := by
  simp only [childList?, childItems?_eq_mapM, List.mapM_append, List.mapM_cons, h]

/-- A node depends on the entries of its kind alone. -/
theorem ofFields?_congr {kind : Kind} {entries others : Json.Object}
    (h : ∀ key ∈ kind.fieldNames, Json.Object.get? entries key = Json.Object.get? others key) :
    ofFields? kind (Json.Object.get? entries "tag") (Json.Object.get? entries "value")
        (Json.Object.get? entries "props") ((Json.Object.get? entries "children").map childList?) =
      ofFields? kind (Json.Object.get? others "tag") (Json.Object.get? others "value")
        (Json.Object.get? others "props")
        ((Json.Object.get? others "children").map childList?) := by
  cases kind with
  | root => rw [ofFields?, ofFields?, h "children" (by decide)]
  | element =>
    rw [ofFields?, ofFields?, h "tag" (by decide), h "props" (by decide), h "children" (by decide)]
  | text => rw [ofFields?, ofFields?, h "value" (by decide)]

/-- No attributes at all are read as empty attributes. -/
theorem ofFields?_congr_props {kind : Kind} {tag value props other : Option Json}
    {children : Option (Option (List Node))} (h : attributes? props = attributes? other) :
    ofFields? kind tag value props children = ofFields? kind tag value other children := by
  cases kind with
  | root => rfl
  | element => rw [ofFields?, ofFields?, h]
  | text => rfl

theorem ofFields?_congr_children {kind : Kind} {tag value props : Option Json}
    {children other : Option (Option (List Node))}
    (h : children.getD (some []) = other.getD (some [])) :
    ofFields? kind tag value props children = ofFields? kind tag value props other := by
  cases kind with
  | root => rw [ofFields?, ofFields?, h]
  | element => rw [ofFields?, ofFields?, h]
  | text => rfl

/-- A change to a looser form is not seen by the reader, be the value a node or not. -/
theorem ofJson?_of_loosens {json changed : Json} (h : Loosens json changed) (nested : Bool) :
    ofJson? nested changed = ofJson? nested json := by
  induction h generalizing nested with
  | @dropProps entries hempty =>
    rw [ofJson?_object, ofJson?_object, Json.Object.get?_erase_self,
      Json.Object.get?_erase_of_ne (by decide), Json.Object.get?_erase_of_ne (by decide),
      Json.Object.get?_erase_of_ne (by decide), Json.Object.get?_erase_of_ne (by decide), hempty]
    exact bind_congr fun kind ↦ ofFields?_congr_props rfl
  | @dropChildren entries hempty =>
    rw [ofJson?_object, ofJson?_object, Json.Object.get?_erase_self,
      Json.Object.get?_erase_of_ne (by decide), Json.Object.get?_erase_of_ne (by decide),
      Json.Object.get?_erase_of_ne (by decide), Json.Object.get?_erase_of_ne (by decide), hempty]
    exact bind_congr fun kind ↦ ofFields?_congr_children rfl
  | @add before after kind name value hkind hname =>
    have hnot {key : String} (hkey : key ∈ kind.fieldNames) : name ≠ key := fun heq ↦
      hname (heq ▸ hkey)
    have hreads : (Json.Object.get? (before ++ after) "type" >>= kind? nested) = some kind := by
      obtain ⟨json, hjson, hread⟩ := Option.bind_eq_some_iff.1 hkind
      rw [hjson]
      exact kind?_of_kind? nested hread
    rw [ofJson?_object, ofJson?_object,
      Json.Object.get?_append_cons_of_ne (hnot kind.type_mem_fieldNames), hreads,
      Option.bind_eq_bind, Option.bind_some, Option.bind_some]
    exact ofFields?_congr (fun key hkey ↦ Json.Object.get?_append_cons_of_ne (hnot hkey))
  | @inside before after items more child changed hchild ih =>
    have hother {key : String} (hkey : "children" ≠ key) :
        Json.Object.get? (before ++ ("children", .array (items ++ changed :: more)) :: after) key =
          Json.Object.get? (before ++ ("children", .array (items ++ child :: more)) :: after) key :=
      (Json.Object.get?_append_cons_of_ne hkey).trans
        (Json.Object.get?_append_cons_of_ne hkey).symm
    rw [ofJson?_object, ofJson?_object,
      Json.Object.map_get?_append_cons (childList?_append_cons (ih true)),
      hother (by decide), hother (by decide), hother (by decide), hother (by decide)]

/-! ## Round trips -/

theorem attributes?_attributesJson (attributes : Attributes) :
    attributes? (some (attributesJson attributes)) = some attributes := by
  have hfold (entries : List (String × String)) (start : Attributes) :
      (entries.map fun entry ↦ (entry.1, Json.string entry.2)).foldlM
          (fun attributes entry ↦ do return attributes.insert entry.1 (← string? entry.2)) start =
        some (entries.foldl (fun attributes entry ↦ attributes.insert entry.1 entry.2) start) := by
    induction entries generalizing start with
    | nil => rfl
    | cons entry rest ih =>
      rw [List.map_cons, List.foldlM_cons, List.foldl_cons]
      exact ih _
  rw [attributesJson, attributes?, hfold]
  exact congrArg some (Attributes.ofList_entries attributes)

mutual

/-- A node is read back from its JSON form. -/
theorem ofJson?_toJson (nested : Bool) : ∀ node : Node, ofJson? nested node.toJson = some node
  | root nodes => by
    rw [toJson, ofJson?_object]
    have hnodes : childList? (.array (listJson nodes)) = some nodes := childItems?_listJson nodes
    simp [Json.Object.get?, kind?, ofFields?, hnodes]
  | element tag attributes nodes => by
    rw [toJson, ofJson?_object]
    have hnodes : childList? (.array (listJson nodes)) = some nodes := childItems?_listJson nodes
    simp [Json.Object.get?, kind?, ofFields?, string?, attributes?_attributesJson, hnodes]
  | text value => by
    rw [toJson, ofJson?_object]
    simp [Json.Object.get?, kind?, ofFields?, string?]

theorem childItems?_listJson : ∀ nodes : List Node, childItems? (listJson nodes) = some nodes
  | [] => rfl
  | node :: rest => by
    rw [listJson, childItems?, ofJson?_toJson true node, childItems?_listJson rest]
    rfl

end

/-- A node is read back from its JSON form, however loosely that is written. -/
theorem ofJson?_of_loosened (node : Node) (nested : Bool) {json : Json}
    (h : Relation.ReflTransGen Loosens node.toJson json) : ofJson? nested json = some node := by
  induction h with
  | refl => exact ofJson?_toJson nested node
  | tail _ hstep ih => rw [ofJson?_of_loosens hstep, ih]

/-- A division with a rule, an empty root and a text in it, and with attributes whose names are
those of entries. -/
def ruledDivision : Node :=
  element "div" (Attributes.ofList [("type", "text"), ("children", "none")])
    [ofTag "hr", root [], text "a"]

/-- Its form without what is empty, and with entries that its nodes do not have. -/
def looseRuledDivision : Json :=
  .object [("value", .null), ("type", .string "element"), ("tag", .string "div"),
    ("props", .object [("children", .string "none"), ("type", .string "text")]),
    ("children", .array [.object [("type", .string "element"), ("tag", .string "hr")],
      .object [("type", .string "root"), ("tag", .string "b")],
      .object [("type", .string "text"), ("value", .string "a"), ("children", .nat 5)]])]

theorem ofJson?_of_loosened_ruledDivision :
    Relation.ReflTransGen Loosens ruledDivision.toJson looseRuledDivision ∧
      ofJson? false looseRuledDivision = some ruledDivision := by
  let fields : Json.Object := [("type", .string "element"), ("tag", .string "div"),
    ("props", .object [("children", .string "none"), ("type", .string "text")])]
  let division (rule inner label : Json.Object) : Json :=
    .object (fields ++ [("children", .array [.object rule, .object inner, .object label])])
  let rule : Json.Object := [("type", .string "element"), ("tag", .string "hr")]
  let inner : Json.Object := [("type", .string "root")]
  let label : Json.Object := [("type", .string "text"), ("value", .string "a")]
  have hform : ruledDivision.toJson = division
      (rule ++ [("props", .object []), ("children", .array [])])
      (inner ++ [("children", .array [])]) label := rfl
  have hrule : Relation.ReflTransGen Loosens ruledDivision.toJson
      (division rule (inner ++ [("children", .array [])]) label) := by
    rw [hform]
    exact .tail (.single (.inside fields [] [] _ (.dropProps rfl)))
      (.inside fields [] [] _ (.dropChildren rfl))
  have hinner : Relation.ReflTransGen Loosens ruledDivision.toJson
      (division rule (inner ++ [("tag", .string "b")]) label) :=
    .tail (.tail hrule (.inside fields [] [.object rule] _ (.dropChildren rfl)))
      (.inside fields [] [.object rule] _ (.add inner [] _ rfl (by decide)))
  have hlabel : Relation.ReflTransGen Loosens ruledDivision.toJson
      (division rule (inner ++ [("tag", .string "b")]) (label ++ [("children", .nat 5)])) :=
    .tail hinner (.inside fields [] [.object rule, _] [] (.add label [] _ rfl (by decide)))
  have h : Relation.ReflTransGen Loosens ruledDivision.toJson looseRuledDivision :=
    .tail hlabel (.add [] _ _ rfl (by decide))
  exact ⟨h, ofJson?_of_loosened ruledDivision false h⟩

end Node

end NotebookTree
