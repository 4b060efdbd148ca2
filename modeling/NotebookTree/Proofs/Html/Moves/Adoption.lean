import Mathlib.Logic.Relation
import NotebookTree.Html.Modes

/-!
# What closing a formatting element does

A formatting element that other elements are nested in wrongly is closed in rounds. `Round` lists
what one of them does to a builder: most close elements or forget a formatting element, and one kind
moves the furthest block out of the formatting element. What each round keeps, closing a formatting
element keeps: `rounds_closeFormatting`.
-/

namespace NotebookTree.Html

/-- What each step keeps, a run of steps keeps. -/
theorem keeps_of_reflTransGen {α : Type*} {step : α → α → Prop} {holds : α → Prop} {a b : α}
    (h : Relation.ReflTransGen step a b) (ha : holds a)
    (hstep : ∀ a b, step a b → holds a → holds b) : holds b := by
  induction h with
  | refl => exact ha
  | tail _ hlast ih => exact hstep _ _ hlast ih

namespace Builder

/-! ## Open elements -/

/-- The stack is cut in two at an element that is open. -/
theorem exists_dropWhile_eq {stack : List OpenElement} {id : Nat}
    (h : ∃ element ∈ stack, element.id = id) :
    ∃ element below, stack.dropWhile (·.id != id) = element :: below ∧ element.id = id ∧
      stack = stack.takeWhile (·.id != id) ++ element :: below := by
  induction stack with
  | nil => simp at h
  | cons first rest ih =>
    by_cases hfirst : first.id = id
    · exact ⟨first, rest, by simp [hfirst], hfirst, by simp [hfirst]⟩
    · obtain ⟨element, hmem, hid⟩ := h
      have hrest : element ∈ rest := by
        rcases List.mem_cons.1 hmem with rfl | hmem
        · exact absurd hid hfirst
        · exact hmem
      obtain ⟨element, below, hdrop, hid, hsplit⟩ := ih ⟨element, hrest, hid⟩
      have hne : (first.id != id) = true := by simpa using hfirst
      refine ⟨element, below, ?_, hid, ?_⟩
      · rw [List.dropWhile_cons, if_pos hne, hdrop]
      · rw [List.takeWhile_cons, if_pos hne, List.cons_append, ← hsplit]

/-- What stands above an element that is open within a scope does not bound the scope. -/
theorem scope_eq_false_of_findInScope {scope : Scope} {wanted : OpenElement → Bool}
    {stack : List OpenElement} (h : findInScope scope wanted stack = true) :
    ∀ x ∈ stack.takeWhile (!wanted ·), scope x = false := by
  induction stack with
  | nil => exact List.forall_mem_nil _
  | cons first rest ih =>
    rw [List.takeWhile_cons]
    split
    · next hfirst =>
      rw [Bool.not_eq_true'] at hfirst
      rw [findInScope, hfirst, Bool.false_or, Bool.and_eq_true, Bool.not_eq_true'] at h
      exact List.forall_mem_cons.2 ⟨h.1, ih h.2⟩
    · exact List.forall_mem_nil _

/-- A formatting element that may be opened again is open within its scope. -/
structure Enclosed (b : Builder) (formatting : OpenElement) (tag : Tag)
    (above below : List OpenElement) : Prop where
  entry_mem : .element formatting.id tag ∈ b.formatting
  stack_eq : b.stack = above ++ formatting :: below
  id_ne : ∀ element ∈ above, element.id ≠ formatting.id
  scope_eq : ∀ element ∈ above, defaultScope element = false

variable {b : Builder} {formatting : OpenElement} {tag : Tag} {above below : List OpenElement}

theorem Enclosed.dropWhile_eq (h : b.Enclosed formatting tag above below) :
    b.stack.dropWhile (·.id != formatting.id) = formatting :: below := by
  have hpass : ∀ element ∈ above, (element.id != formatting.id) = true := fun element hmem ↦
    bne_iff_ne.2 (h.id_ne element hmem)
  rw [h.stack_eq, List.dropWhile_append_of_pos hpass, List.dropWhile_cons_of_neg (by simp)]

theorem Enclosed.suffix (h : b.Enclosed formatting tag above below) : below <:+ b.stack := by
  rw [h.stack_eq]
  exact (List.suffix_cons _ _).trans (List.suffix_append _ _)

/-! ## Rounds -/

/-- What is done at once to close a formatting element of the name. -/
inductive Round (name : String) (b : Builder) : Builder → Prop where
  | pop (h : b.currentIs name = true) : Round name b b.pop
  | forget (id : Nat) : Round name b (b.removeFormatting id)
  | closeOrdinary : Round name b (b.closeOrdinary name)
  | close {formatting : OpenElement} {tag : Tag} {above below : List OpenElement}
    (h : b.Enclosed formatting tag above below) :
    Round name b { b.removeFormatting formatting.id with stack := below }
  /-- The block is taken out of the tree, and moved after the walk over the elements below it. -/
  | moveBlock {formatting block : OpenElement} {tag : Tag} {above below : List OpenElement}
    {found rest : Dom} (h : b.Enclosed formatting tag above below) (hblock : block ∈ above)
    (hdetach : b.tree.detach? block.id = some (found, rest)) :
    Round name b (Builder.moveBlock
      (walkDown 0 ⟨{ b with tree := rest }, [], found, none⟩
        (above.dropWhile (·.id != block.id)).tail)
      formatting.id tag block (above.takeWhile (·.id != block.id)) below)

/-- A run of rounds. -/
def Rounds (name : String) : Builder → Builder → Prop := Relation.ReflTransGen (Round name)

theorem rounds_adoptOnce (b : Builder) (name : String) : Rounds name b (b.adoptOnce name).1 := by
  unfold adoptOnce
  dsimp only
  split
  · next id tag hfound =>
    have hentry := (List.takeWhile_sublist _).subset (List.mem_of_find?_eq_some hfound)
    split
    · exact .single (.forget id)
    next hopen =>
    split
    · exact .refl
    next hscope =>
    rw [Bool.not_eq_true', Bool.not_eq_false] at hscope
    obtain ⟨formatting, below, hdrop, rfl, hstack⟩ :=
      exists_dropWhile_eq (show ∃ element ∈ b.stack, element.id = id by simpa using hopen)
    have henclosed : b.Enclosed formatting tag (b.stack.takeWhile (·.id != formatting.id)) below :=
      ⟨hentry, hstack, fun element hmem ↦ by
        simpa using List.all_eq_true.1 List.all_takeWhile element hmem,
        scope_eq_false_of_findInScope hscope⟩
    rw [hdrop, List.tail_cons]
    split
    · exact .single (.close henclosed)
    next block hblock =>
    split
    · exact .refl
    next found rest hdetach =>
    have habove := List.mem_reverse.1 (List.mem_of_find?_eq_some hblock)
    exact .single (.moveBlock henclosed habove hdetach)
  · exact .single .closeOrdinary

theorem rounds_adopt (b : Builder) (limit : Nat) (name : String) :
    Rounds name b (adopt limit name b) := by
  induction limit generalizing b with
  | zero => exact .refl
  | succ limit ih =>
    have honce := rounds_adoptOnce b name
    unfold adopt
    split
    · next b' heq =>
      rw [heq] at honce
      exact honce.trans (ih b')
    · next heq =>
      rw [heq] at honce
      exact honce

theorem rounds_closeFormatting (b : Builder) (name : String) :
    Rounds name b (b.closeFormatting name) := by
  unfold closeFormatting
  split
  · next h => exact .single (.pop (Bool.and_eq_true_iff.1 h).1)
  · exact rounds_adopt b 8 name

/-- An earlier link is closed and forgotten before another one is opened. -/
theorem closeOpenLink_cases (b : Builder) :
    b.closeOpenLink = b ∨ ∃ id tag, .element id tag ∈ b.formatting ∧
      b.closeOpenLink = ((b.closeFormatting "a").removeFormatting id).removeOpen id := by
  unfold closeOpenLink
  dsimp only
  split
  · next id tag hfound =>
    exact .inr ⟨id, tag,
      (List.takeWhile_sublist _).subset (List.mem_of_find?_eq_some hfound), rfl⟩
  · exact .inl rfl

end Builder

end NotebookTree.Html
