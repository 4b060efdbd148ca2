import NotebookTree.Proofs.Prose.Grafting

/-!
# The spine of a tree under construction

The parts of a fragment arrive in document order, and the newest child of an element comes first
among its children. The way from the root to the newest child, to the newest child of that, and so
on is the spine of a tree. What is put behind the children of an element of the spine comes last in
the document.

The marks of a tree are the characters that a reader meets in it, and the stand-ins, if these are
watched for. A change at the spine adds to the marks at their end, and taking an element of the
spine out of the tree takes marks from their end.
-/

namespace NotebookTree

/-- What a reader meets in a document whose elements are not in place yet. -/
inductive Mark where
  | char (c : Char)
  /-- A stand-in, with the index that it has. -/
  | standIn (index : Option Nat)

namespace Html

/-- What is watched for in a document. -/
structure Watch where
  /-- Does a stand-in count as a whole, whatever is inside it? -/
  standIns : Bool
  /-- May the document have elements of SVG and MathML? -/
  foreign : Bool

/-- Is an element of the tag a stand-in that counts as a whole? -/
def Watch.isLeaf (w : Watch) (tag : String) : Bool :=
  w.standIns && tag == standInTag

theorem Watch.not_isLeaf (w : Watch) {tag : String} (h : tag ≠ standInTag) : ¬w.isLeaf tag := by
  rw [isLeaf, beq_eq_false_iff_ne.2 h, Bool.and_false]
  exact Bool.false_ne_true

namespace Dom

section Definitions

variable (w : Watch)

mutual

/-- The marks of a tree in document order. What is inside a leaf or a template has none. -/
def marks : Dom → List Mark
  | element _ name attributes children =>
    if w.isLeaf name.name then
      [.standIn (Draft.standInIndex? name.name (attributesOf attributes))]
    else marksAll children
  | text value => value.map .char
  | comment => []
  | contents _ _ => []

/-- The marks of a list of trees that has the newest first, in document order. -/
def marksAll : List Dom → List Mark
  | [] => []
  | node :: older => marksAll older ++ marks node

end

mutual

/-- The numbers of the elements on the spine of a tree, the root first. It ends at a leaf. -/
def spine : Dom → List Nat
  | element id name _ children => if w.isLeaf name.name then [] else id :: spineFirst children
  | _ => []

/-- The numbers of the elements on the spine of the newest tree of a list. -/
def spineFirst : List Dom → List Nat
  | [] => []
  | node :: _ => spine node

end

end Definitions

variable {w : Watch}

/-! ## Adding nodes -/

theorem marksAll_push (node : Dom) (children : List Dom) :
    marksAll w (push node children) = marksAll w children ++ marks w node := by
  unfold push
  split
  · simp only [marksAll, marks, List.map_append, List.append_assoc]
  · rfl

theorem spineFirst_push (node : Dom) (children : List Dom) :
    spineFirst w (push node children) = spine w node := by
  unfold push
  split
  · simp only [spineFirst, spine]
  · rfl

/-- A tree with a spine is an element that is no leaf, and the spine goes on below it. -/
theorem exists_of_spine_eq_cons {tree : Dom} {first : Nat} {ids : List Nat}
    (h : tree.spine w = first :: ids) :
    ∃ name attributes children, tree = .element first name attributes children ∧
      ¬w.isLeaf name.name ∧ spineFirst w children = ids := by
  cases tree with
  | element n name attributes children =>
    rw [spine] at h
    split at h
    · cases h
    · next hname =>
      obtain ⟨rfl, hchildren⟩ := List.cons.inj h
      exact ⟨name, attributes, children, rfl, hname, hchildren⟩
  | text value => simp [spine] at h
  | comment => simp [spine] at h
  | contents n children => simp [spine] at h

/-! ## Changing an element of the spine -/

/-- A change of the children of an element of the spine that adds marks at their end adds them at
the end of the tree, and changes the spine below the element only. -/
theorem exists_update?_eq {id : Nat} {change : List Dom → List Dom} {added : List Mark}
    (below : List Nat → List Nat)
    (hmarks : ∀ children, marksAll w (change children) = marksAll w children ++ added)
    (hspine : ∀ children, spineFirst w (change children) = below (spineFirst w children))
    {before after : List Nat} {tree : Dom} (htree : tree.spine w = before ++ id :: after)
    (hfresh : id ∉ before) :
    ∃ tree', update? id change tree = some tree' ∧ tree'.marks w = tree.marks w ++ added ∧
      tree'.spine w = before ++ id :: below after := by
  induction before generalizing tree with
  | nil =>
    obtain ⟨name, attributes, children, rfl, hname, rfl⟩ := exists_of_spine_eq_cons htree
    refine ⟨.element id name attributes (change children), ?_, ?_, ?_⟩
    · rw [update?, if_pos rfl]
    · rw [marks, marks, if_neg hname, if_neg hname, hmarks]
    · rw [spine, if_neg hname, hspine]
      rfl
  | cons first before ih =>
    obtain ⟨name, attributes, children, rfl, hname, hchildren⟩ := exists_of_spine_eq_cons htree
    have hne : first ≠ id := fun heq ↦ hfresh (heq ▸ List.mem_cons_self)
    cases children with
    | nil => simp [spineFirst] at hchildren
    | cons node older =>
      obtain ⟨node', hnode, hnodeMarks, hnodeSpine⟩ :=
        ih hchildren fun hmem ↦ hfresh (List.mem_cons_of_mem _ hmem)
      refine ⟨.element first name attributes (node' :: older), ?_, ?_, ?_⟩
      · rw [update?, if_neg hne, updateFirst?, hnode]
        rfl
      · rw [marks, marks, if_neg hname, if_neg hname, marksAll, marksAll, hnodeMarks,
          List.append_assoc]
      · rw [spine, if_neg hname, spineFirst, hnodeSpine]
        rfl

/-! ## Taking an element of the spine out -/

/-- An element of the spine below the root comes out with all that comes last in the document. The
spine above it stays. -/
theorem exists_detach?_eq {id root : Nat} {before after : List Nat} {tree : Dom}
    (htree : tree.spine w = root :: (before ++ id :: after)) (hfresh : id ∉ before) :
    ∃ found rest, detach? id tree = some (found, rest) ∧
      tree.marks w = rest.marks w ++ found.marks w ∧ found.spine w = id :: after ∧
      (root :: before) <+: rest.spine w := by
  induction before generalizing root tree with
  | nil =>
    obtain ⟨name, attributes, children, rfl, hname, hchildren⟩ := exists_of_spine_eq_cons htree
    cases children with
    | nil => simp [spineFirst] at hchildren
    | cons node older =>
      refine ⟨node, .element root name attributes older, ?_, ?_, hchildren, ?_⟩
      · obtain ⟨name', attributes', children', rfl, -, -⟩ := exists_of_spine_eq_cons hchildren
        simp [detach?, detachFirst?]
      · rw [marks, marks, if_neg hname, if_neg hname, marksAll]
      · rw [spine, if_neg hname]
        exact List.prefix_append [root] _
  | cons first before ih =>
    obtain ⟨name, attributes, children, rfl, hname, hchildren⟩ := exists_of_spine_eq_cons htree
    have hne : first ≠ id := fun heq ↦ hfresh (heq ▸ List.mem_cons_self)
    cases children with
    | nil => simp [spineFirst] at hchildren
    | cons node older =>
      obtain ⟨found, node', hnode, hmarks, hfound, hprefix⟩ :=
        ih hchildren fun hmem ↦ hfresh (List.mem_cons_of_mem _ hmem)
      refine ⟨found, .element root name attributes (node' :: older), ?_, ?_, hfound, ?_⟩
      · obtain ⟨name', attributes', children', rfl, -, -⟩ := exists_of_spine_eq_cons hchildren
        rw [detach?, detachFirst?, hnode]
        simp [hne]
      · rw [marks, marks, if_neg hname, if_neg hname, marksAll, marksAll, hmarks,
          List.append_assoc]
      · rw [spine, if_neg hname, spineFirst]
        exact List.cons_prefix_cons.2 ⟨rfl, hprefix⟩

end Dom

end Html

end NotebookTree
