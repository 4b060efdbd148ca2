import Mathlib.Data.List.Chain
import Mathlib.Data.List.Forall2

/-!
# Lists of siblings

`Apart p l` says that no two members of a list with the property stand next to each other, and
`ApartBelow` that this is so in every list of siblings of a forest, at any depth. What becomes of a
list whose members without another property are left out is said by `apart_filter_iff`.
-/

namespace NotebookTree

variable {α β : Type*}

/-- No two members with the property stand next to each other. -/
def Apart (p : α → Bool) (l : List α) : Prop :=
  l.IsChain fun a b ↦ ¬(p a = true ∧ p b = true)

instance (p : α → Bool) (l : List α) : Decidable (Apart p l) :=
  inferInstanceAs (Decidable (l.IsChain fun a b ↦ ¬(p a = true ∧ p b = true)))

namespace Apart

variable {p : α → Bool} {q : β → Bool} {l : List α} {a b : α}

theorem nil : Apart p [] := List.IsChain.nil

theorem singleton (a : α) : Apart p [a] := List.IsChain.singleton a

theorem tail (h : Apart p (a :: l)) : Apart p l := List.IsChain.tail h

theorem cons_iff : Apart p (a :: l) ↔ (∀ b ∈ l.head?, ¬(p a = true ∧ p b = true)) ∧ Apart p l :=
  List.isChain_cons

/-- A member without the property separates its neighbours. -/
theorem cons_of_not (h : p a = false) (hl : Apart p l) : Apart p (a :: l) := by
  refine cons_iff.2 ⟨fun b _ hab ↦ ?_, hl⟩
  rw [h] at hab
  cases hab.1

theorem of_forall_not (h : ∀ a ∈ l, p a = false) : Apart p l := by
  induction l with
  | nil => exact nil
  | cons a rest ih =>
    rw [List.forall_mem_cons] at h
    exact cons_of_not h.1 (ih h.2)

theorem reverse_iff : Apart p l.reverse ↔ Apart p l := by
  rw [Apart, List.isChain_reverse, Apart]
  simp only [and_comm]

theorem iff_forall_ne_append :
    Apart p l ↔ ∀ before a b after, l = before ++ a :: b :: after → ¬(p a = true ∧ p b = true) := by
  rw [Apart, List.isChain_iff_forall_rel_of_append_cons_cons]
  constructor
  · intro h before a b after hl
    exact h hl
  · intro h a b before after hl
    exact h before a b after hl

/-- Lists whose members have the same properties. -/
theorem congr {others : List β} (h : List.Forall₂ (fun a b ↦ p a = q b) l others) :
    Apart p l ↔ Apart q others := by
  induction h with
  | nil => exact iff_of_true nil nil
  | @cons a b rest others hab hrest ih =>
    rw [cons_iff, cons_iff, ih, hab]
    refine and_congr_left fun _ ↦ ?_
    cases hrest with
    | nil => simp
    | cons hnext _ => simp [hnext]

end Apart

/-! ## Members that are left out -/

/-- Between two members with the property, none of which is left out, all are left out, and there
is at least one. -/
def Bridged (p kept : α → Bool) (l : List α) : Prop :=
  ∃ before a dropped b after, l = before ++ a :: (dropped ++ b :: after) ∧
    (p a = true ∧ p b = true) ∧ dropped ≠ [] ∧ ∀ other ∈ dropped, kept other = false

section Bridged

variable {p kept : α → Bool} {l : List α}

theorem Bridged.cons (h : Bridged p kept l) (a : α) : Bridged p kept (a :: l) := by
  obtain ⟨before, b, dropped, c, after, rfl, hends, hne, hdropped⟩ := h
  exact ⟨a :: before, b, dropped, c, after, rfl, hends, hne, hdropped⟩

/-- The first member that is not left out, with those before it. -/
theorem exists_of_mem_head?_filter {b : α} (h : b ∈ (l.filter kept).head?) :
    ∃ dropped after, l = dropped ++ b :: after ∧ ∀ other ∈ dropped, kept other = false := by
  induction l with
  | nil => cases h
  | cons a rest ih =>
    cases ha : kept a with
    | true =>
      rw [List.filter_cons_of_pos ha] at h
      cases h
      exact ⟨[], rest, rfl, by simp⟩
    | false =>
      rw [List.filter_cons_of_neg (by simp [ha])] at h
      obtain ⟨dropped, after, rfl, hdropped⟩ := ih h
      exact ⟨a :: dropped, after, rfl, List.forall_mem_cons.2 ⟨ha, hdropped⟩⟩

/-- Members that are left out bring two others together if they stood next to each other, or if
nothing else stood between them. -/
theorem apart_filter_iff (hkept : ∀ a, p a = true → kept a = true) :
    Apart p (l.filter kept) ↔ Apart p l ∧ ¬Bridged p kept l := by
  constructor
  · intro h
    constructor
    · rw [Apart.iff_forall_ne_append]
      rintro before a b after rfl ⟨ha, hb⟩
      rw [List.filter_append, List.filter_cons_of_pos (hkept a ha),
        List.filter_cons_of_pos (hkept b hb)] at h
      exact Apart.iff_forall_ne_append.1 h _ a b _ rfl ⟨ha, hb⟩
    · rintro ⟨before, a, dropped, b, after, rfl, ⟨ha, hb⟩, -, hdropped⟩
      have hempty : dropped.filter kept = [] := by
        rw [List.filter_eq_nil_iff]
        exact fun other hother ↦ by simp [hdropped other hother]
      rw [List.filter_append, List.filter_cons_of_pos (hkept a ha), List.filter_append, hempty,
        List.nil_append, List.filter_cons_of_pos (hkept b hb)] at h
      exact Apart.iff_forall_ne_append.1 h _ a b _ rfl ⟨ha, hb⟩
  · rintro ⟨hl, hbridged⟩
    induction l with
    | nil => exact Apart.nil
    | cons a rest ih =>
      have hrest := ih hl.tail fun hrest ↦ hbridged (hrest.cons a)
      cases ha : kept a with
      | false => rwa [List.filter_cons_of_neg (by simp [ha])]
      | true =>
        rw [List.filter_cons_of_pos ha]
        refine Apart.cons_iff.2 ⟨?_, hrest⟩
        rintro b hb hends
        obtain ⟨dropped, after, rfl, hdropped⟩ := exists_of_mem_head?_filter hb
        by_cases hne : dropped = []
        · subst hne
          exact Apart.iff_forall_ne_append.1 hl [] a b after rfl hends
        · exact hbridged ⟨[], a, dropped, b, after, rfl, hends, hne, hdropped⟩

end Bridged

/-! ## Forests -/

section Forests

variable (children : α → List α) (p : α → Bool)

/-- The lists of siblings of a forest: the forest itself, and the children of each of its nodes. -/
inductive IsSiblings (nodes : List α) : List α → Prop where
  | top : IsSiblings nodes nodes
  | inside {siblings : List α} {node : α} :
      IsSiblings nodes siblings → node ∈ siblings → IsSiblings nodes (children node)

/-- Each list of siblings has a property. -/
def Throughout (holds : List α → Prop) (nodes : List α) : Prop :=
  ∀ siblings, IsSiblings children nodes siblings → holds siblings

/-- In no list of siblings do two nodes with the property stand next to each other. -/
abbrev ApartBelow (nodes : List α) : Prop := Throughout children (Apart p) nodes

variable {children p} {nodes siblings : List α} {holds : List α → Prop}

/-- The lists of siblings below a node are lists of siblings of its forest. -/
theorem IsSiblings.of_children {node : α} (hmem : node ∈ nodes)
    (h : IsSiblings children (children node) siblings) : IsSiblings children nodes siblings := by
  induction h with
  | top => exact .inside .top hmem
  | inside _ hnode ih => exact .inside ih hnode

theorem isSiblings_iff :
    IsSiblings children nodes siblings ↔
      siblings = nodes ∨ ∃ node ∈ nodes, IsSiblings children (children node) siblings := by
  constructor
  · intro h
    induction h with
    | top => exact .inl rfl
    | inside _ hnode ih =>
      rcases ih with rfl | ⟨node, hmem, hbelow⟩
      · exact .inr ⟨_, hnode, .top⟩
      · exact .inr ⟨node, hmem, .inside hbelow hnode⟩
  · rintro (rfl | ⟨node, hmem, h⟩)
    · exact .top
    · exact h.of_children hmem

theorem throughout_iff :
    Throughout children holds nodes ↔
      holds nodes ∧ ∀ node ∈ nodes, Throughout children holds (children node) := by
  constructor
  · intro h
    exact ⟨h nodes .top, fun node hmem siblings hsiblings ↦ h siblings (hsiblings.of_children hmem)⟩
  · rintro ⟨htop, hinside⟩ siblings hsiblings
    rcases isSiblings_iff.1 hsiblings with rfl | ⟨node, hmem, hnode⟩
    · exact htop
    · exact hinside node hmem siblings hnode

theorem Throughout.mono {holds' : List α → Prop} (h : Throughout children holds nodes)
    (himp : ∀ siblings, holds siblings → holds' siblings) : Throughout children holds' nodes :=
  fun siblings hsiblings ↦ himp siblings (h siblings hsiblings)

/-- Checks each list of siblings of a forest that is less deep than a bound. -/
def checkThroughout (children : α → List α) (holds : List α → Bool) : Nat → List α → Bool
  | 0, _ => false
  | depth + 1, nodes =>
    holds nodes && nodes.all fun node ↦ checkThroughout children holds depth (children node)

theorem throughout_of_checkThroughout {check : List α → Bool} {depth : Nat}
    (h : checkThroughout children check depth nodes = true) :
    Throughout children (check · = true) nodes := by
  induction depth generalizing nodes with
  | zero => cases h
  | succ depth ih =>
    rw [checkThroughout, Bool.and_eq_true, List.all_eq_true] at h
    exact throughout_iff.2 ⟨h.1, fun node hmem ↦ ih (h.2 node hmem)⟩

end Forests

end NotebookTree
