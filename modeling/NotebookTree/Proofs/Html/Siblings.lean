import NotebookTree.Proofs.Html.Apart.Moves
import NotebookTree.Proofs.Html.RoundTrip

/-!
# Texts among the siblings of a fragment

No two texts stand next to each other in a fragment that is parsed: `apart_parseFragment`. It is
compiled without its comments and without the contents of templates, and the texts on both sides of
what is left out are not joined. So two texts stand next to each other in a compiled fragment
exactly if nothing but comments stood between two texts: `textsApart_iff_of_compileFragment`.
-/

namespace NotebookTree

/-- No text stands next to a text, at any depth. -/
abbrev Node.TextsApart (nodes : List Node) : Prop := ApartBelow Node.children Node.isText nodes

theorem Node.textsApart_nil : Node.TextsApart [] :=
  throughout_iff.2 ⟨.nil, List.forall_mem_nil _⟩

namespace Html

namespace HtmlNode

/-- Is the node a text? -/
def isText : HtmlNode → Bool
  | text _ => true
  | _ => false

/-- Is the node an element or a text? -/
def isShown : HtmlNode → Bool
  | element .. => true
  | text _ => true
  | comment => false
  | contents _ => false

/-- The children of an element. Other nodes have none, not even the contents of a template. -/
def children : HtmlNode → List HtmlNode
  | element _ _ children => children
  | _ => []

variable {nodes : List HtmlNode} {lowered : List Node}

theorem isShown_of_isText {node : HtmlNode} (h : node.isText = true) : node.isShown = true := by
  cases node with
  | text value => rfl
  | element name attributes children => cases h
  | comment => cases h
  | contents children => cases h

theorem Depicts.isText_eq {node : HtmlNode} {other : Node} (h : Depicts node other) :
    node.isText = other.isText := by
  cases h <;> rfl

theorem forall₂_isText_filter_shownAll (nodes : List HtmlNode) :
    List.Forall₂ (fun a b ↦ a.isText = b.isText) (nodes.filter isShown) (shownAll false nodes) := by
  induction nodes with
  | nil => exact .nil
  | cons node rest ih =>
    cases node with
    | element name attributes children => exact .cons rfl ih
    | text value => exact .cons rfl ih
    | comment => exact ih
    | contents children => exact ih

/-- What depicts the elements and texts of a list has its texts where they have. -/
theorem apart_iff_of_depicts (h : List.Forall₂ Depicts (shownAll false nodes) lowered) :
    Apart Node.isText lowered ↔ Apart isText nodes ∧ ¬Bridged isText isShown nodes := by
  have hshown : Apart isText (shownAll false nodes) ↔ Apart Node.isText lowered :=
    Apart.congr (h.imp fun _ _ hdepicts ↦ hdepicts.isText_eq)
  rw [← hshown, ← Apart.congr (forall₂_isText_filter_shownAll nodes),
    apart_filter_iff fun _ ↦ isShown_of_isText]

/-- The texts of a list stay apart, also without what is not shown. -/
def StaysApart (siblings : List HtmlNode) : Prop :=
  Apart isText siblings ∧ ¬Bridged isText isShown siblings

theorem staysApart_nil : Throughout children StaysApart [] :=
  throughout_iff.2 ⟨⟨.nil, fun ⟨before, a, dropped, b, after, h, _⟩ ↦ by simp at h⟩,
    List.forall_mem_nil _⟩

theorem textsApart_iff_of_forall (h : List.Forall₂ Depicts (shownAll false nodes) lowered)
    (hinside : (∀ node ∈ lowered, Node.TextsApart node.children) ↔
      ∀ node ∈ nodes, Throughout children StaysApart node.children) :
    Node.TextsApart lowered ↔ Throughout children StaysApart nodes := by
  rw [Node.TextsApart, ApartBelow, throughout_iff, throughout_iff, apart_iff_of_depicts h, hinside]
  rfl

theorem exists_append_of_forall₂ {others : List HtmlNode}
    (h : List.Forall₂ Depicts (nodes ++ others) lowered) :
    ∃ first rest, lowered = first ++ rest ∧ List.Forall₂ Depicts nodes first ∧
      List.Forall₂ Depicts others rest :=
  ⟨lowered.take nodes.length, lowered.drop nodes.length, (List.take_append_drop _ _).symm,
    (List.forall₂_take_append lowered nodes others h.flip).flip,
    (List.forall₂_drop_append lowered nodes others h.flip).flip⟩

mutual

theorem textsApart_children_iff_of_depicts : ∀ (node : HtmlNode) {lowered : List Node},
    List.Forall₂ Depicts (shown false node) lowered →
      ((∀ other ∈ lowered, Node.TextsApart other.children) ↔
        Throughout children StaysApart node.children)
  | .element name attributes inner, _, h => by
    obtain _ | ⟨hfirst, hrest⟩ := h
    cases hrest
    obtain _ | ⟨_, _, hinner⟩ := hfirst
    rw [List.forall_mem_singleton]
    exact textsApart_iff_of_forall hinner (forall_textsApart_iff_of_depicts inner hinner)
  | .text value, _, h => by
    obtain _ | ⟨hfirst, hrest⟩ := h
    cases hrest
    cases hfirst
    rw [List.forall_mem_singleton]
    exact iff_of_true Node.textsApart_nil staysApart_nil
  | .comment, _, .nil => iff_of_true (List.forall_mem_nil _) staysApart_nil
  | .contents _, _, .nil => iff_of_true (List.forall_mem_nil _) staysApart_nil

theorem forall_textsApart_iff_of_depicts : ∀ (nodes : List HtmlNode) {lowered : List Node},
    List.Forall₂ Depicts (shownAll false nodes) lowered →
      ((∀ node ∈ lowered, Node.TextsApart node.children) ↔
        ∀ node ∈ nodes, Throughout children StaysApart node.children)
  | [], _, .nil => iff_of_true (List.forall_mem_nil _) (List.forall_mem_nil _)
  | node :: rest, _, h => by
    obtain ⟨first, others, rfl, hfirst, hothers⟩ := exists_append_of_forall₂ h
    rw [List.forall_mem_append, List.forall_mem_cons,
      textsApart_children_iff_of_depicts node hfirst, forall_textsApart_iff_of_depicts rest hothers]

end

/-- Nodes that depict a forest have no texts side by side exactly if the texts of the forest stay
apart. -/
theorem textsApart_iff_of_depicts (h : List.Forall₂ Depicts (shownAll false nodes) lowered) :
    Node.TextsApart lowered ↔ Throughout children StaysApart nodes :=
  textsApart_iff_of_forall h (forall_textsApart_iff_of_depicts nodes h)

end HtmlNode

/-! ## Parsed fragments -/

namespace Dom

theorem isText_finish (node : Dom) : node.finish.isText = node.head.isText := by
  cases node <;> rfl

theorem finishAll_eq (nodes : List Dom) (after : List HtmlNode) :
    finishAll nodes after = (nodes.map finish).reverse ++ after := by
  induction nodes generalizing after with
  | nil => rfl
  | cons node rest ih => simp [finishAll, ih]

/-- Finished siblings have their texts apart if their heads do. -/
theorem apart_finishAll {nodes : List Dom} (h : Apart Head.isText (heads nodes)) :
    Apart HtmlNode.isText (finishAll nodes []) := by
  have hkinds : List.Forall₂ (fun head node ↦ Head.isText head = HtmlNode.isText node)
      (heads nodes) (nodes.map finish) := by
    rw [List.forall₂_map_left_iff, List.forall₂_map_right_iff, List.forall₂_same]
    exact fun node _ ↦ (isText_finish node).symm
  rw [finishAll_eq, List.append_nil, Apart.reverse_iff]
  exact (Apart.congr hkinds).1 h

mutual

theorem Families.apart_finish
    (hholds : ∀ id heads, holds id heads → Apart Head.isText heads) :
    ∀ {tree : Dom}, tree.Families holds →
      ApartBelow HtmlNode.children HtmlNode.isText tree.finish.children
  | element _ _ _ children, h => by
    refine throughout_iff.2 ⟨apart_finishAll (hholds _ _ h.1), fun node hmem ↦ ?_⟩
    rw [finish, HtmlNode.children, finishAll_eq, List.append_nil] at hmem
    exact FamiliesIn.forall_apart_finish hholds h.2 node (List.mem_reverse.1 hmem)
  | text _, _ => throughout_iff.2 ⟨.nil, List.forall_mem_nil _⟩
  | comment, _ => throughout_iff.2 ⟨.nil, List.forall_mem_nil _⟩
  | contents _ _, _ => throughout_iff.2 ⟨.nil, List.forall_mem_nil _⟩

/-- Finished trees have their texts apart if all families have. -/
theorem FamiliesIn.forall_apart_finish
    (hholds : ∀ id heads, holds id heads → Apart Head.isText heads) :
    ∀ {trees : List Dom}, FamiliesIn holds trees → ∀ node ∈ trees.map finish,
      ApartBelow HtmlNode.children HtmlNode.isText node.children
  | [], _ => List.forall_mem_nil _
  | _ :: _, h => List.forall_mem_cons.2
      ⟨h.1.apart_finish hholds, FamiliesIn.forall_apart_finish hholds h.2⟩

end

end Dom

/-- No two texts stand next to each other in a fragment that is parsed. -/
theorem apart_parseFragment (html : String) :
    ApartBelow HtmlNode.children HtmlNode.isText (parseFragment html) := by
  unfold parseFragment
  dsimp only
  generalize normalizeLineEnds _ = text
  have hbuilt := Builder.built_atEnd_readAll (text.length + 1) text
  have hfamilies := (Builder.tidy_empty.of_built hbuilt).families
  have hfinished := hfamilies.apart_finish fun _ _ hfits ↦ hfits.apart
  generalize (Builder.empty.readAll (text.length + 1) text).atEnd.tree = tree at hfinished ⊢
  split
  · next heq => rwa [heq] at hfinished
  · exact throughout_iff.2 ⟨.singleton _, List.forall_mem_singleton.2 hfinished⟩

/-- Two texts stand next to each other in a compiled fragment exactly if nothing but comments stood
between two texts. -/
theorem textsApart_iff_of_compileFragment {limit : Nat} {html : String} {nodes : List Node}
    (h : compileFragment limit html = .ok nodes) :
    Node.TextsApart nodes ↔
      Throughout HtmlNode.children (¬Bridged HtmlNode.isText HtmlNode.isShown ·)
        (parseFragment html) := by
  have hstays : Node.TextsApart nodes ↔
      Throughout HtmlNode.children HtmlNode.StaysApart (parseFragment html) := by
    rw [compileFragment_eq] at h
    rcases lowerNodes_cases (Nat.le_add_left 1 limit) (parseFragment html) with ⟨-, herror⟩ |
        ⟨-, lowered, hok, hdepicts⟩
    · cases h.symm.trans herror
    · cases h.symm.trans hok
      exact HtmlNode.textsApart_iff_of_depicts hdepicts
  rw [hstays]
  constructor
  · exact fun hall siblings hsiblings ↦ (hall siblings hsiblings).2
  · exact fun hall siblings hsiblings ↦
      ⟨apart_parseFragment html siblings hsiblings, hall siblings hsiblings⟩

end Html

end NotebookTree
