import Mathlib.Data.List.Basic
import Mathlib.Data.List.Flatten
import NotebookTree.Proofs.Html.Moves.Adoption
import NotebookTree.Proofs.Html.Steady

/-!
# Closing formatting elements in a steady builder

Closing a formatting element with a special element inside it takes that element out of the tree,
renews the formatting elements between the two around it, and puts it behind the children of the
element below the formatting element. As the special element came last in the document, and comes
last again, the marks of the tree stay as they are.
-/

namespace NotebookTree.Html.Builder

variable {w : Watch} {mode : Mode} {ms : List Mark} {b : Builder}

/-! ## Renewing the elements on the way -/

/-- The walk has renewed some elements around a tree. Their numbers are new, and they lie on the
spine above that tree. -/
structure Walk.Renewed (w : Watch) (b : Builder) (subtree : Dom) (walk : Walk) : Prop where
  builder_eq : walk.builder =
    { b with nextId := walk.builder.nextId, formatting := walk.builder.formatting }
  formatting_isPlain : ∀ entry ∈ walk.builder.formatting, entry.IsPlain w
  le_nextId : b.nextId ≤ walk.builder.nextId
  marks_eq : walk.subtree.marks w = subtree.marks w
  spine_eq : walk.subtree.spine w = walk.kept.map (·.id) ++ subtree.spine w
  nodup_kept : (walk.kept.map (·.id)).Nodup
  le_kept : ∀ id ∈ walk.kept.map (·.id), b.nextId ≤ id ∧ id < walk.builder.nextId
  kept_isPlain : ∀ element ∈ walk.kept, element.name.IsPlain w

namespace Walk.Renewed

variable {subtree : Dom} {walk : Walk}

theorem forget (h : walk.Renewed w b subtree) (id : Nat) :
    Renewed w b subtree { walk with builder := walk.builder.removeFormatting id } :=
  { h with
    builder_eq := by
      show walk.builder.removeFormatting id = _
      rw [h.builder_eq]
      rfl
    formatting_isPlain := fun entry hmem ↦
      h.formatting_isPlain entry (List.mem_filter.1 hmem).1 }

/-- One more element is renewed around the tree. -/
theorem renew (h : walk.Renewed w b subtree) {tag : Tag} (htag : tag.IsPlain w) (old : Nat)
    (bookmark : Option Nat) :
    Renewed w b subtree
      { builder := { walk.builder with
          nextId := walk.builder.nextId + 2
          formatting := walk.builder.formatting.map fun entry ↦
            if entry.id? == some old then .element walk.builder.nextId tag else entry }
        kept := ⟨walk.builder.nextId, ⟨.html, tag.name⟩⟩ :: walk.kept
        subtree := .element walk.builder.nextId ⟨.html, tag.name⟩ (htmlAttributes tag)
          [walk.subtree]
        bookmark } where
  builder_eq := by
    dsimp only
    rw [h.builder_eq]
  formatting_isPlain := by
    intro entry hmem
    obtain ⟨before, hbefore, rfl⟩ := List.mem_map.1 hmem
    split
    · exact htag
    · exact h.formatting_isPlain before hbefore
  le_nextId := Nat.le_add_right_of_le h.le_nextId
  marks_eq := by
    rw [Dom.marks, if_neg htag.not_leaf, Dom.marksAll, Dom.marksAll, List.nil_append, h.marks_eq]
  spine_eq := by
    rw [Dom.spine, if_neg htag.not_leaf, Dom.spineFirst, h.spine_eq]
    rfl
  nodup_kept := by
    rw [List.map_cons, List.nodup_cons]
    exact ⟨fun hmem ↦ Nat.lt_irrefl _ (h.le_kept _ hmem).2, h.nodup_kept⟩
  le_kept := by
    rw [List.map_cons, List.forall_mem_cons]
    refine ⟨⟨h.le_nextId, Nat.lt_add_of_pos_right Nat.two_pos⟩, fun id hmem ↦ ?_⟩
    exact ⟨(h.le_kept id hmem).1, Nat.lt_add_right 2 (h.le_kept id hmem).2⟩
  kept_isPlain := List.forall_mem_cons.2 ⟨htag, h.kept_isPlain⟩

/-- Before the walk nothing is renewed. -/
theorem start (hformatting : ∀ entry ∈ b.formatting, entry.IsPlain w) (subtree : Dom) :
    Renewed w b subtree ⟨b, [], subtree, none⟩ where
  builder_eq := rfl
  formatting_isPlain := hformatting
  le_nextId := Nat.le_refl _
  marks_eq := rfl
  spine_eq := rfl
  nodup_kept := List.nodup_nil
  le_kept := by simp
  kept_isPlain := by simp

theorem walkDown (h : walk.Renewed w b subtree) (passed : Nat) (between : List OpenElement) :
    (walkDown passed walk between).Renewed w b subtree := by
  induction between generalizing passed walk with
  | nil => exact h
  | cons element below ih =>
    unfold Builder.walkDown
    dsimp only
    split
    · next id tag hfound =>
      have htag : tag.IsPlain w := h.formatting_isPlain _ (List.mem_of_find?_eq_some hfound)
      split
      · exact ih (h.forget element.id) _
      · exact ih (h.renew htag element.id _) _
    · exact ih h _

end Walk.Renewed

/-! ## Moving the furthest block -/

/-- A formatting entry that takes the place of another one is among the entries. -/
theorem forall_mem_replaceFormatting {holds : FormattingEntry → Prop}
    {entries : List FormattingEntry} {new : FormattingEntry} (hnew : holds new)
    (hentries : ∀ entry ∈ entries, holds entry) (old : Nat) (bookmark : Option Nat) :
    ∀ entry ∈ replaceFormatting old bookmark new entries, holds entry := by
  intro entry hmem
  cases bookmark with
  | none =>
    obtain ⟨before, hbefore, rfl⟩ := List.mem_map.1 hmem
    split
    · exact hnew
    · exact hentries before hbefore
  | some mark =>
    obtain ⟨before, hbefore, hentry⟩ := List.mem_flatMap.1 (List.mem_filter.1 hmem).1
    split at hentry
    · simp only [List.mem_cons, List.not_mem_nil, or_false] at hentry
      rcases hentry with rfl | rfl
      · exact hnew
      · exact hentries entry hbefore
    · rw [List.mem_singleton.1 hentry]
      exact hentries before hbefore

/-- An element of the spine gets its children back inside a renewed element. -/
theorem marks_wrapChildren {tree : Dom} {before after : List Nat} {id : Nat} (new : Nat) {tag : Tag}
    (htag : tag.IsPlain w) (hspine : tree.spine w = before ++ id :: after) (hfresh : id ∉ before) :
    (wrapChildren id new tag tree).marks w = tree.marks w ∧
      (wrapChildren id new tag tree).spine w = before ++ id :: new :: after := by
  have hmarks (children : List Dom) :
      Dom.marksAll w [.element new ⟨.html, tag.name⟩ (htmlAttributes tag) children] =
        Dom.marksAll w children ++ [] := by
    rw [Dom.marksAll, Dom.marksAll, Dom.marks, if_neg htag.not_leaf, List.nil_append,
      List.append_nil]
  have hbelow (children : List Dom) :
      Dom.spineFirst w [.element new ⟨.html, tag.name⟩ (htmlAttributes tag) children] =
        new :: Dom.spineFirst w children := by
    rw [Dom.spineFirst, Dom.spine, if_neg htag.not_leaf]
  obtain ⟨tree', hupdate, hmarks', hspine'⟩ :=
    Dom.exists_update?_eq (fun ids ↦ new :: ids) hmarks hbelow hspine hfresh
  rw [wrapChildren, hupdate, Option.getD_some]
  exact ⟨by rw [hmarks', List.append_nil], hspine'⟩

/-- The stack after a block has moved: the renewed element is open inside the block, and the
formatting element is closed. -/
def movedStack (formatting block : Nat) (new : OpenElement) (stack : List OpenElement) :
    List OpenElement :=
  (stack.filter (·.id != formatting)).flatMap fun element ↦
    if element.id == block then [new, element] else [element]

theorem forall_mem_movedStack {holds : OpenElement → Prop} {stack : List OpenElement}
    {new : OpenElement} (hnew : holds new) (hstack : ∀ element ∈ stack, holds element)
    (formatting block : Nat) :
    ∀ element ∈ movedStack formatting block new stack, holds element := by
  intro element hmem
  obtain ⟨old, hold, helement⟩ := List.mem_flatMap.1 hmem
  have hold' := hstack old (List.mem_filter.1 hold).1
  split at helement
  · simp only [List.mem_cons, List.not_mem_nil, or_false] at helement
    rcases helement with rfl | rfl
    · exact hnew
    · exact hold'
  · rwa [List.mem_singleton.1 helement]

theorem openIds_movedStack_sublist {top kept below : List OpenElement} {block : OpenElement}
    (formatting new : OpenElement) (htop : ∀ element ∈ top, element.id ≠ block.id)
    (hkept : ∀ element ∈ kept, element.id ≠ block.id)
    (hbelow : ∀ element ∈ below, element.id ≠ block.id) :
    (openIds (movedStack formatting.id block.id new
        (top ++ block :: kept.reverse ++ formatting :: below))).Sublist
      (openIds below ++ (kept.map (·.id) ++ block.id :: new.id :: openIds top)) := by
  have hself {elements : List OpenElement} (h : ∀ element ∈ elements, element.id ≠ block.id) :
      (elements.flatMap fun element ↦
        if element.id == block.id then [new, element] else [element]) = elements := by
    refine (List.flatMap_congr fun element hmem ↦ ?_).trans (List.flatMap_singleton' elements)
    exact if_neg (by simpa using h element hmem)
  have hkept' : ∀ element ∈ kept.reverse, element.id ≠ block.id :=
    fun element hmem ↦ hkept element (List.mem_reverse.1 hmem)
  have hfilter : ((top ++ block :: kept.reverse ++ formatting :: below).filter
      (·.id != formatting.id)).Sublist (top ++ block :: kept.reverse ++ below) := by
    rw [List.filter_append, List.filter_cons_of_neg (by simp)]
    exact List.filter_sublist.append List.filter_sublist
  have hflat : ((top ++ block :: kept.reverse ++ below).flatMap fun element ↦
      if element.id == block.id then [new, element] else [element]) =
        top ++ new :: block :: kept.reverse ++ below := by
    rw [List.flatMap_append, List.flatMap_append, List.flatMap_cons, hself htop, hself hkept',
      hself hbelow, if_pos (beq_self_eq_true block.id)]
    rfl
  have hmoved := (hfilter.flatMap fun element ↦
    if element.id == block.id then [new, element] else [element])
  rw [hflat] at hmoved
  have hids := hmoved.reverse.map (·.id)
  simpa [movedStack, openIds] using hids

/-- New numbers above and below the block leave each number on the spine once. -/
theorem nodup_moved {kept between inner renewed : List Nat} {block first next : Nat}
    (hold : (kept ++ (between ++ block :: inner)).Nodup)
    (hlt : ∀ id ∈ kept ++ (between ++ block :: inner), id < first) (hrenewed : renewed.Nodup)
    (hle : ∀ id ∈ renewed, first ≤ id ∧ id < next) (hnext : first ≤ next) :
    (kept ++ (renewed ++ block :: next :: inner)).Nodup := by
  have hsub : (kept ++ block :: inner).Sublist (kept ++ (between ++ block :: inner)) :=
    (List.Sublist.refl kept).append (List.sublist_append_right _ _)
  have hlt' : ∀ id ∈ kept ++ block :: inner, id < first := fun id hid ↦ hlt id (hsub.subset hid)
  have habove := nodup_append_append first (hold.sublist hsub) hlt' hrenewed fun id hid ↦
    (hle id hid).1
  have hbelow : ((kept ++ renewed ++ [block]) ++ ([next] ++ inner)).Nodup := by
    apply nodup_append_append next
    · simpa using habove
    · intro id hid
      have hmem : id ∈ renewed ∨ id ∈ kept ++ block :: inner := by
        simp only [List.mem_append, List.mem_cons, List.not_mem_nil, or_false] at hid ⊢
        grind
      rcases hmem with hmem | hmem
      · exact (hle id hmem).2
      · exact Nat.lt_of_lt_of_le (hlt' id hmem) hnext
    · simp
    · simp
  simpa using hbelow

/-- The tree is cut at an element of its spine. What is found comes last, the rest keeps the spine
above it, and the numbers on both sides of the element lie on both parts of the spine. -/
structure Cut (w : Watch) (tree : Dom) (outer : List Nat) (block : Nat) (inner : List Nat)
    (found rest : Dom)
    (above after : List Nat) : Prop where
  marks_eq : rest.marks w ++ found.marks w = tree.marks w
  spine_eq : tree.spine w = above ++ block :: after
  not_mem : block ∉ above
  outer_sublist : outer.Sublist above
  inner_sublist : inner.Sublist after
  root : ∃ ids, above = 0 :: ids
  above_prefix : above <+: rest.spine w
  found_spine : found.spine w = block :: after

namespace Cut

variable {tree found rest : Dom} {outer inner above after : List Nat} {block : Nat}

/-- Of elements outside the block, the innermost lies on what is left of the spine. -/
theorem exists_target {below : List OpenElement}
    (hcut : Cut w tree (openIds below ++ outer) block inner found rest above after)
    (hnodup : (tree.spine w).Nodup) :
    ∃ before between more,
      above = before ++ (below.headD ⟨0, ⟨.html, "html"⟩⟩).id :: between ∧
      (below.headD ⟨0, ⟨.html, "html"⟩⟩).id ∉ before ∧
      (openIds below).Sublist (before ++ [(below.headD ⟨0, ⟨.html, "html"⟩⟩).id]) ∧
      rest.spine w = before ++ (below.headD ⟨0, ⟨.html, "html"⟩⟩).id :: (between ++ more) := by
  obtain ⟨ids, hroot⟩ := hcut.root
  have habove : above.Nodup := by
    rw [hcut.spine_eq] at hnodup
    exact hnodup.sublist (List.sublist_append_left _ _)
  obtain ⟨before, between, hbefore, htarget, hbelow⟩ := exists_append_of_openIds_sublist
    ((List.sublist_append_left _ _).trans hcut.outer_sublist) habove hroot
  obtain ⟨more, hrest⟩ := hcut.above_prefix
  refine ⟨before, between, more, hbefore, htarget, hbelow, ?_⟩
  rw [← hrest, hbefore, List.append_assoc, List.cons_append]

/-- What was found is put back inside renewed elements, and the children of the block inside one
more. All of it comes last again. -/
theorem marks_spine_moved (hcut : Cut w tree outer block inner found rest above after)
    {subtree moved : Dom} {before between renewed : List Nat} {target next : Nat} {tag : Tag}
    (htag : tag.IsPlain w) (habove : above = before ++ target :: between)
    (hrenewed : block ∉ renewed)
    (hsubtreeMarks : subtree.marks w = found.marks w)
    (hsubtreeSpine : subtree.spine w = renewed ++ found.spine w)
    (hmovedMarks : moved.marks w = rest.marks w ++ subtree.marks w)
    (hmovedSpine : moved.spine w = before ++ target :: subtree.spine w) :
    (wrapChildren block next tag moved).marks w = tree.marks w ∧
      (wrapChildren block next tag moved).spine w =
        (before ++ [target]) ++ (renewed ++ block :: next :: after) := by
  have hspine : moved.spine w = (before ++ target :: renewed) ++ block :: after := by
    rw [hmovedSpine, hsubtreeSpine, hcut.found_spine, List.append_assoc, List.cons_append]
  have hfresh : block ∉ before ++ target :: renewed := by
    intro hmem
    have hmem' : block ∈ above ∨ block ∈ renewed := by
      rw [habove]
      simp only [List.mem_append, List.mem_cons] at hmem ⊢
      grind
    exact hmem'.elim hcut.not_mem hrenewed
  obtain ⟨hwrapMarks, hwrapSpine⟩ := marks_wrapChildren next htag hspine hfresh
  refine ⟨?_, by simpa using hwrapSpine⟩
  rw [hwrapMarks, hmovedMarks, hsubtreeMarks, hcut.marks_eq]

end Cut

namespace Steady

/-- The furthest block comes out of the tree with all that comes last. -/
theorem exists_detach?_eq (h : b.Steady w mode ms) {outer inner : List Nat} {block : Nat}
    (hsub : (outer ++ block :: inner).Sublist (b.tree.spine w)) (hne : outer ≠ []) :
    ∃ found rest above after, b.tree.detach? block = some (found, rest) ∧
      Cut w b.tree outer block inner found rest above after := by
  obtain ⟨ids, hroot⟩ := h.root
  obtain ⟨above, after, hspine, hfresh, houter, hinner⟩ :=
    exists_append_of_append_sublist hsub h.nodup_spine
  cases above with
  | nil => exact absurd (List.sublist_nil.1 houter) hne
  | cons first above =>
    obtain rfl : first = 0 := by
      rw [hspine] at hroot
      exact (List.cons.inj hroot).1
    obtain ⟨found, rest, hdetach, hmarks, hfound, hprefix⟩ :=
      Dom.exists_detach?_eq hspine fun hmem ↦ hfresh (List.mem_cons_of_mem _ hmem)
    exact ⟨found, rest, 0 :: above, after, hdetach, hmarks.symm, hspine, hfresh, houter, hinner,
      ⟨above, rfl⟩, hprefix, hfound⟩

/-- The furthest block comes last again. -/
theorem moveBlock (h : b.Steady w mode ms) {walk : Walk} {formatting block : OpenElement}
    {tag : Tag}
    {top below : List OpenElement} {outer above after : List Nat} {found rest : Dom}
    (htag : tag.IsPlain w)
    (hcut : Cut w b.tree (openIds below ++ outer) block.id (openIds top) found rest above after)
    (hwalk : walk.Renewed w { b with tree := rest } found)
    (hstack : b.stack.dropWhile (·.id != formatting.id) = formatting :: below)
    (hblock : block ∈ b.stack) (htop : ∀ element ∈ top, element ∈ b.stack ∧ element.id ≠ block.id) :
    (Builder.moveBlock walk formatting.id tag block top below).Steady w mode ms := by
  have hbuilder := hwalk.builder_eq
  obtain ⟨builder, kept, subtree, bookmark⟩ := walk
  dsimp only at hbuilder
  have hkept : ∀ id ∈ kept.map (·.id), b.nextId ≤ id ∧ id < builder.nextId := hwalk.le_kept
  have hnext : b.nextId ≤ builder.nextId := hwalk.le_nextId
  have hformatting := hwalk.formatting_isPlain
  generalize builder.nextId = next at *
  generalize builder.formatting = entries at *
  subst hbuilder
  obtain ⟨before, between, more, habove, htarget, hbelow, hrest⟩ := hcut.exists_target h.nodup_spine
  have hopenBelow : ∀ element ∈ formatting :: below, element ∈ b.stack := fun element hmem ↦
    (List.dropWhile_sublist _).subset (hstack ▸ hmem)
  have hplain : (below.headD ⟨0, ⟨.html, "html"⟩⟩).name.IsPlain w :=
    headD_isPlain fun element hmem ↦
      h.stack_isPlain element (hopenBelow element (List.mem_cons_of_mem _ hmem))
  obtain ⟨moved, hinsert, hmovedMarks, hmovedSpine⟩ := exists_insertAt_eq
    (b := { b with
      tree := rest, nextId := next, formatting := entries
      stack := top ++ block :: kept.reverse ++ formatting :: below })
    h.fostering_eq hplain.not_template hrest htarget subtree
  unfold Builder.moveBlock
  dsimp only
  rw [hstack, hinsert]
  generalize (below.headD ⟨0, ⟨.html, "html"⟩⟩).id = target at *
  have hold : b.tree.spine w = (before ++ [target]) ++ (between ++ block.id :: after) := by
    rw [hcut.spine_eq, habove]
    simp
  have hlt : ∀ id ∈ (before ++ [target]) ++ (between ++ block.id :: after), id < b.nextId :=
    hold ▸ h.lt_nextId
  have hrenewed : block.id ∉ kept.map (·.id) := fun hmem ↦
    Nat.not_lt.2 (hkept block.id hmem).1 (hlt block.id (by simp))
  obtain ⟨hmarks, hspine⟩ := hcut.marks_spine_moved htag habove hrenewed hwalk.marks_eq
    hwalk.spine_eq hmovedMarks hmovedSpine
  have hids : ∀ element ∈ below, element.id ∈ above := fun element hmem ↦
    hcut.outer_sublist.subset
      (List.mem_append_left _ (List.mem_map_of_mem (List.mem_reverse.2 hmem)))
  have hopen := openIds_movedStack_sublist formatting ⟨next, ⟨.html, tag.name⟩⟩
    (fun element hmem ↦ (htop element hmem).2)
    (fun element hmem heq ↦ hrenewed (heq ▸ List.mem_map_of_mem hmem))
    (fun element hmem heq ↦ hcut.not_mem (heq ▸ hids element hmem))
  have hnames : ∀ element ∈ top ++ block :: kept.reverse ++ formatting :: below,
      element.name.IsPlain w := by
    simp only [List.append_assoc, List.cons_append, List.forall_mem_append,
      List.forall_mem_cons, List.mem_reverse] at hopenBelow ⊢
    exact ⟨fun element hmem ↦ h.stack_isPlain _ (htop element hmem).1, h.stack_isPlain _ hblock,
      hwalk.kept_isPlain, h.stack_isPlain _ hopenBelow.1,
      fun element hmem ↦ h.stack_isPlain _ (hopenBelow.2 element hmem)⟩
  have hgraft : Steady w mode ((wrapChildren block.id next tag moved).marks w)
      { b with
        tree := wrapChildren block.id next tag moved
        nextId := next + 2
        stack := movedStack formatting.id block.id ⟨next, ⟨.html, tag.name⟩⟩
          (top ++ block :: kept.reverse ++ formatting :: below) } := by
    refine h.graft hspine ⟨_, hold.symm⟩ (by simp) ?_ ?_ ?_ ?_ ?_
    · exact nodup_moved (hold ▸ h.nodup_spine) hlt hwalk.nodup_kept hkept hnext
    · have hinner : ∀ id ∈ block.id :: after, id < b.nextId := fun id hmem ↦
        hlt id (List.mem_append_right _ (List.mem_append_right _ hmem))
      simp only [List.mem_append, List.mem_cons] at hinner ⊢
      grind
    · exact Nat.le_add_right_of_le hnext
    · exact hopen.trans (hbelow.append ((List.Sublist.refl _).append
        ((hcut.inner_sublist.cons_cons _).cons_cons _)))
    · exact forall_mem_movedStack htag hnames formatting.id block.id
  rw [hmarks, h.marks_eq] at hgraft
  have hnew : FormattingEntry.IsPlain w (.element next tag) := htag
  exact hgraft.withFormatting
    (forall_mem_replaceFormatting hnew hformatting formatting.id bookmark)

/-- The furthest block is taken out, and moved after the walk over the elements below it. -/
theorem moveFurthestBlock (h : b.Steady w mode ms) {formatting block : OpenElement} {tag : Tag}
    {above below : List OpenElement} {found rest : Dom}
    (henclosed : b.Enclosed formatting tag above below) (hblock : block ∈ above)
    (hdetach : b.tree.detach? block.id = some (found, rest)) :
    (Builder.moveBlock (Builder.walkDown 0 ⟨{ b with tree := rest }, [], found, none⟩
      (above.dropWhile (·.id != block.id)).tail) formatting.id tag block
        (above.takeWhile (·.id != block.id)) below).Steady w mode ms := by
  have htag : tag.IsPlain w := h.formatting_isPlain _ henclosed.entry_mem
  have hopen : ∀ element ∈ above, element ∈ b.stack := fun element hmem ↦ by
    rw [henclosed.stack_eq]
    exact List.mem_append_left _ hmem
  obtain ⟨block', between, hdrop, hid, habove⟩ := exists_dropWhile_eq ⟨block, hblock, rfl⟩
  have hsub : ((openIds below ++ formatting.id :: openIds between) ++ block.id ::
      openIds (above.takeWhile (·.id != block.id))).Sublist (b.tree.spine w) := by
    have hopenIds := h.openIds_sublist
    rw [henclosed.stack_eq, habove, openIds_append, openIds_append] at hopenIds
    simpa [openIds, hid] using hopenIds
  obtain ⟨found', rest', before, after, hdetach', hcut⟩ := h.exists_detach?_eq hsub (by simp)
  cases hdetach'.symm.trans hdetach
  have hstart : Walk.Renewed w { b with tree := rest } found
      ⟨{ b with tree := rest }, [], found, none⟩ :=
    .start (b := { b with tree := rest }) h.formatting_isPlain found
  rw [hdrop, List.tail_cons]
  refine h.moveBlock htag hcut (hstart.walkDown 0 between) henclosed.dropWhile_eq
    (hopen block hblock) fun element hmem ↦ ?_
  refine ⟨hopen element ((List.takeWhile_sublist _).subset hmem), ?_⟩
  simpa using List.all_eq_true.1 List.all_takeWhile element hmem

theorem of_round (h : b.Steady w mode ms) {name : String} {b' : Builder}
    (hround : Round name b b') : b'.Steady w mode ms := by
  cases hround with
  | pop _ => exact h.pop
  | forget id => exact h.removeFormatting id
  | closeOrdinary => exact h.closeOrdinary name
  | close henclosed => exact (h.removeFormatting _).withStack henclosed.suffix.sublist
  | moveBlock henclosed hblock hdetach => exact h.moveFurthestBlock henclosed hblock hdetach

theorem closeFormatting (h : b.Steady w mode ms) (name : String) :
    (b.closeFormatting name).Steady w mode ms :=
  keeps_of_reflTransGen (rounds_closeFormatting b name) h fun _ _ hround hbefore ↦
    hbefore.of_round hround

end Steady

end NotebookTree.Html.Builder
