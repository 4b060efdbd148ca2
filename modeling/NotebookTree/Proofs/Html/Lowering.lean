import Mathlib.Data.List.Forall2
import NotebookTree.Html.Fragment

/-!
# What a fragment is compiled to

`HtmlNode.shownAll` are the elements and texts of a forest of HTML: comments are left out, and the
contents of templates either are left out too or take the place where they are kept.
`Html.compileFragment_exact` says that a fragment is refused exactly if one of its elements outside
templates lies deeper than the limit, and that else the nodes depict its elements and texts outside
templates one to one. What is in a template is lost.
-/

namespace NotebookTree

mutual

/-- The elements of a node with their attributes, in document order. -/
def Node.elements : Node → List (String × Attributes)
  | .root nodes => Node.elementsAll nodes
  | .element tag attributes nodes => (tag, attributes) :: Node.elementsAll nodes
  | .text _ => []

/-- The elements of the nodes of a list. -/
def Node.elementsAll : List Node → List (String × Attributes)
  | [] => []
  | node :: rest => Node.elements node ++ Node.elementsAll rest

end

namespace Html

namespace HtmlNode

section

variable (withContents : Bool)

mutual

/-- The elements and texts of a node, with the contents of templates or without them. -/
def shown : HtmlNode → List HtmlNode
  | element name attributes children => [element name attributes (shownAll children)]
  | text value => [text value]
  | comment => []
  | contents children => if withContents then shownAll children else []

/-- The elements and texts of the nodes of a list. -/
def shownAll : List HtmlNode → List HtmlNode
  | [] => []
  | node :: rest => shown node ++ shownAll rest

end

end

/-- An element lies at a level of a forest. The nodes of the forest itself are at the first one. -/
inductive LiesAt : Nat → List HtmlNode → Prop where
  | top {name : ElementName} {attributes : List Attribute} {children nodes : List HtmlNode}
    (h : element name attributes children ∈ nodes) : LiesAt 1 nodes
  | deeper {level : Nat} {name : ElementName} {attributes : List Attribute}
    {children nodes : List HtmlNode} (h : element name attributes children ∈ nodes)
    (hbelow : LiesAt level children) : LiesAt (level + 1) nodes

/-- A node of a document depicts an element or a text of HTML: it has the same tag or the same text,
and its children depict the children. -/
inductive Depicts : HtmlNode → Node → Prop where
  | text (value : String) : Depicts (text value) (.text value)
  | element (name : ElementName) (attributes : List Attribute) {children : List HtmlNode}
    {nodes : List Node} (h : List.Forall₂ Depicts children nodes) :
    Depicts (element name attributes children)
      (.element name.name (attributesOf attributes) nodes)

/-! ## Levels -/

mutual

/-- The level of the deepest element of a node. -/
def height : HtmlNode → Nat
  | element _ _ children => heights children + 1
  | text _ => 0
  | comment => 0
  | contents _ => 0

/-- The level of the deepest element of a list. -/
def heights : List HtmlNode → Nat
  | [] => 0
  | node :: rest => max (height node) (heights rest)

end

theorem heights_append (first second : List HtmlNode) :
    heights (first ++ second) = max (heights first) (heights second) := by
  induction first with
  | nil => simp [heights]
  | cons node rest ih => simp only [List.cons_append, heights, ih, Nat.max_assoc]

theorem height_le_heights {node : HtmlNode} {nodes : List HtmlNode} (h : node ∈ nodes) :
    node.height ≤ heights nodes := by
  induction nodes with
  | nil => cases h
  | cons first rest ih =>
    rcases List.mem_cons.1 h with rfl | h
    · exact Nat.le_max_left _ _
    · exact Nat.le_trans (ih h) (Nat.le_max_right _ _)

theorem LiesAt.le_heights {level : Nat} {nodes : List HtmlNode} (h : LiesAt level nodes) :
    level ≤ heights nodes := by
  induction h with
  | top hmem =>
    have hle := height_le_heights hmem
    rw [height] at hle
    omega
  | deeper hmem _ ih =>
    have hle := height_le_heights hmem
    rw [height] at hle
    omega

theorem LiesAt.mono {level : Nat} {nodes others : List HtmlNode} (h : LiesAt level nodes)
    (hsub : nodes ⊆ others) : LiesAt level others := by
  cases h with
  | top hmem => exact .top (hsub hmem)
  | deeper hmem hbelow => exact .deeper (hsub hmem) hbelow

mutual

theorem liesAt_height : ∀ node : HtmlNode, 0 < node.height → LiesAt node.height [node]
  | element name attributes children, _ => by
    rw [height]
    rcases Nat.eq_zero_or_pos (heights children) with hzero | hpos
    · rw [hzero]
      exact .top (List.mem_singleton_self _)
    · exact .deeper (List.mem_singleton_self _) (liesAt_heights children hpos)
  | text _, h => by cases h
  | comment, h => by cases h
  | contents _, h => by cases h

/-- Some element lies at the deepest level. -/
theorem liesAt_heights : ∀ nodes : List HtmlNode, 0 < heights nodes → LiesAt (heights nodes) nodes
  | [], h => by cases h
  | node :: rest, h => by
    rw [heights] at h ⊢
    rcases Nat.le_total (heights rest) node.height with hle | hle
    · rw [Nat.max_eq_left hle] at h ⊢
      exact (liesAt_height node h).mono (by simp)
    · rw [Nat.max_eq_right hle] at h ⊢
      exact (liesAt_heights rest h).mono (List.subset_cons_self _ _)

end

theorem exists_liesAt_iff {limit : Nat} {nodes : List HtmlNode} :
    (∃ level, limit < level ∧ LiesAt level nodes) ↔ limit < heights nodes := by
  constructor
  · rintro ⟨level, hlevel, hlies⟩
    exact Nat.lt_of_lt_of_le hlevel hlies.le_heights
  · intro h
    exact ⟨heights nodes, h, liesAt_heights nodes (Nat.zero_lt_of_lt h)⟩

mutual

theorem heights_shown : ∀ node : HtmlNode, heights (shown false node) = node.height
  | element name attributes children => by
    rw [shown, heights, heights, height, height, heights_shownAll children]
    exact Nat.max_zero _
  | text _ => rfl
  | comment => rfl
  | contents _ => rfl

/-- Outside templates, comments make no difference to the levels. -/
theorem heights_shownAll : ∀ nodes : List HtmlNode, heights (shownAll false nodes) = heights nodes
  | [] => rfl
  | node :: rest => by
    rw [shownAll, heights_append, heights_shown node, heights_shownAll rest, heights]

end

/-! ## Elements in document order -/

mutual

/-- The elements of a node with their attributes, in document order. The contents of templates are
left out. -/
def elements : HtmlNode → List (ElementName × List Attribute)
  | element name attributes children => (name, attributes) :: elementsAll children
  | text _ => []
  | comment => []
  | contents _ => []

/-- The elements of the nodes of a list. -/
def elementsAll : List HtmlNode → List (ElementName × List Attribute)
  | [] => []
  | node :: rest => elements node ++ elementsAll rest

end

theorem elementsAll_append (first second : List HtmlNode) :
    elementsAll (first ++ second) = elementsAll first ++ elementsAll second := by
  induction first with
  | nil => rfl
  | cons node rest ih => simp only [List.cons_append, elementsAll, ih, List.append_assoc]

mutual

theorem elementsAll_shown : ∀ node : HtmlNode, elementsAll (shown false node) = node.elements
  | element name attributes children => by
    rw [shown, elementsAll, elements, elements, elementsAll, elementsAll_shownAll children,
      List.append_nil]
  | text _ => rfl
  | comment => rfl
  | contents _ => rfl

/-- The elements outside templates are all shown. -/
theorem elementsAll_shownAll :
    ∀ nodes : List HtmlNode, elementsAll (shownAll false nodes) = elementsAll nodes
  | [] => rfl
  | node :: rest => by
    rw [shownAll, elementsAll_append, elementsAll_shown node, elementsAll_shownAll rest,
      elementsAll]

end

/-- The elements of a node as a document node has them: without vocabularies and qualifiers. -/
def plainElement (found : ElementName × List Attribute) : String × Attributes :=
  (found.1.name, attributesOf found.2)

mutual

theorem Depicts.elements_eq : ∀ {node : HtmlNode} {lowered : Node}, Depicts node lowered →
    lowered.elements = node.elements.map plainElement
  | .element name attributes children, _, .element _ _ h => by
    rw [Node.elements, elements, List.map_cons, elementsAll_eq_of_depicts h]
    rfl
  | .text _, _, .text _ => rfl

/-- Nodes that depict others have the same elements in the same order. -/
theorem elementsAll_eq_of_depicts : ∀ {nodes : List HtmlNode} {lowered : List Node},
    List.Forall₂ Depicts nodes lowered →
      Node.elementsAll lowered = (elementsAll nodes).map plainElement
  | [], _, .nil => rfl
  | node :: rest, _, .cons hnode hrest => by
    rw [Node.elementsAll, elementsAll, List.map_append, hnode.elements_eq,
      elementsAll_eq_of_depicts hrest]

end

end HtmlNode

open HtmlNode

/-! ## Lowering -/

mutual

theorem lowerNode_cases {limit depth : Nat} (hdepth : depth ≤ limit + 1) :
    ∀ node : HtmlNode,
      (limit + 1 < depth + node.height ∧ lowerNode limit depth node = .error (.tooDeep limit)) ∨
      (depth + node.height ≤ limit + 1 ∧ ∃ nodes, lowerNode limit depth node = .ok nodes ∧
        List.Forall₂ Depicts (shown false node) nodes)
  | .text value => .inr ⟨hdepth, _, rfl, .cons (.text value) .nil⟩
  | .comment => .inr ⟨hdepth, _, rfl, .nil⟩
  | .contents _ => .inr ⟨hdepth, _, rfl, .nil⟩
  | .element name attributes children => by
    rw [lowerNode, height]
    by_cases hlimit : limit < depth
    · rw [if_pos hlimit]
      exact .inl ⟨by omega, rfl⟩
    · rw [if_neg hlimit]
      have hchildren : depth + 1 ≤ limit + 1 := by omega
      rcases lowerNodes_cases hchildren children with ⟨hdeep, herror⟩ | ⟨hfits, nodes, hok, hall⟩
      · rw [herror]
        exact .inl ⟨by omega, rfl⟩
      · rw [hok]
        exact .inr ⟨by omega, _, rfl, .cons (.element name attributes hall) .nil⟩

/-- Nodes are refused if one of their elements lies too deep, and else depicted one to one. -/
theorem lowerNodes_cases {limit depth : Nat} (hdepth : depth ≤ limit + 1) :
    ∀ nodes : List HtmlNode,
      (limit + 1 < depth + heights nodes ∧ lowerNodes limit depth nodes = .error (.tooDeep limit)) ∨
      (depth + heights nodes ≤ limit + 1 ∧ ∃ lowered, lowerNodes limit depth nodes = .ok lowered ∧
        List.Forall₂ Depicts (shownAll false nodes) lowered)
  | [] => .inr ⟨hdepth, _, rfl, .nil⟩
  | node :: rest => by
    rw [lowerNodes, heights]
    rcases lowerNode_cases hdepth node with ⟨hdeep, herror⟩ | ⟨hfits, first, hok, hfirst⟩
    · rw [herror]
      exact .inl ⟨by omega, rfl⟩
    · rw [hok]
      rcases lowerNodes_cases hdepth rest with ⟨hdeep, herror⟩ | ⟨hfits', others, hok', hothers⟩
      · rw [herror]
        exact .inl ⟨by omega, rfl⟩
      · rw [hok']
        exact .inr ⟨by omega, _, rfl, List.rel_append hfirst hothers⟩

end

theorem compileFragment_eq (limit : Nat) (html : String) :
    compileFragment limit html = lowerNodes limit 1 (parseFragment html) := by
  rw [compileFragment]
  split
  · next hempty =>
    rw [String.isEmpty_iff.1 hempty]
    rfl
  · rfl

/-- A fragment is compiled to its elements outside templates, without vocabularies and
qualifiers. -/
theorem elementsAll_of_compileFragment {limit : Nat} {html : String} {nodes : List Node}
    (h : compileFragment limit html = .ok nodes) :
    Node.elementsAll nodes = (elementsAll (parseFragment html)).map plainElement := by
  rw [compileFragment_eq] at h
  rcases lowerNodes_cases (Nat.le_add_left 1 limit) (parseFragment html) with ⟨-, herror⟩ |
      ⟨-, lowered, hok, hall⟩
  · cases h.symm.trans herror
  · cases h.symm.trans hok
    rw [elementsAll_eq_of_depicts hall, elementsAll_shownAll]

/-- A fragment is refused exactly if one of its elements, outside templates, lies deeper than the
limit. Else it is compiled to nodes that depict its elements and texts outside templates one to one,
at the same places. -/
theorem compileFragment_exact (limit : Nat) :
    (∀ nodes : List HtmlNode,
      (lowerNodes limit 1 nodes = .error (.tooDeep limit) ↔
        ∃ level, limit < level ∧ LiesAt level (shownAll false nodes)) ∧
      ((¬∃ level, limit < level ∧ LiesAt level (shownAll false nodes)) →
        ∃ lowered, lowerNodes limit 1 nodes = .ok lowered ∧
          List.Forall₂ Depicts (shownAll false nodes) lowered)) ∧
    ∀ html : String, compileFragment limit html = lowerNodes limit 1 (parseFragment html) := by
  refine ⟨fun nodes ↦ ?_, compileFragment_eq limit⟩
  rw [exists_liesAt_iff, heights_shownAll]
  rcases lowerNodes_cases (Nat.le_add_left 1 limit) nodes with ⟨hdeep, herror⟩ |
      ⟨hfits, lowered, hok, hall⟩
  · have hover : limit < heights nodes := by omega
    exact ⟨iff_of_true herror hover, fun h ↦ absurd hover h⟩
  · have hunder : ¬limit < heights nodes := by omega
    exact ⟨iff_of_false (by simp [hok]) hunder, fun _ ↦ ⟨lowered, hok, hall⟩⟩

/-- What is in a template is not depicted: an element that lies too deep there goes unnoticed. -/
theorem not_compileFragment_exact :
    ¬∀ (limit : Nat) (html : String),
      (compileFragment limit html = .error (.tooDeep limit) ↔
        ∃ level, limit < level ∧ LiesAt level (shownAll true (parseFragment html))) ∧
      ((¬∃ level, limit < level ∧ LiesAt level (shownAll true (parseFragment html))) →
        ∃ lowered, compileFragment limit html = .ok lowered ∧
          List.Forall₂ Depicts (shownAll true (parseFragment html)) lowered) := by
  intro h
  have hfits : ¬∃ level, 512 < level ∧
      LiesAt level (shownAll true (parseFragment "<template><b>x</b></template>")) := by
    rw [exists_liesAt_iff]
    decide +kernel
  obtain ⟨lowered, hok, hall⟩ := (h 512 "<template><b>x</b></template>").2 hfits
  have hcompiled : ((compileFragment 512 "<template><b>x</b></template>").toOption.map
      fun lowered ↦ (Node.elementsAll lowered).length) = some 1 := by
    decide +kernel
  have hparsed :
      (elementsAll (shownAll true (parseFragment "<template><b>x</b></template>"))).length = 2 := by
    decide +kernel
  rw [hok] at hcompiled
  have hone : (Node.elementsAll lowered).length = 1 := Option.some.inj hcompiled
  rw [elementsAll_eq_of_depicts hall, List.length_map, hparsed] at hone
  cases hone

end Html

end NotebookTree
