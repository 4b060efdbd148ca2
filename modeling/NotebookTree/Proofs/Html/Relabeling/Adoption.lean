import NotebookTree.Proofs.Html.Adoption
import NotebookTree.Proofs.Html.Relabeling.Building

/-!
# Closing formatting elements with other names

Closing a formatting element renews it and moves the elements nested in it. Formatting elements have
known names, and the elements on the way are told apart by their numbers, so a builder with other
names does the same.
-/

namespace NotebookTree.Html.Builder

open Relabeling

variable {r : Relabeling} {plans : Plan → Prop} {b b' : Builder}

namespace Follows

theorem withTree (h : Follows r plans b b') (tree : Dom) :
    Follows r plans { b with tree } { b' with tree := tree.relabel r } :=
  ⟨by rw [h.eq_relabel]; rfl, h.admits, h.keeps, h.plan⟩

theorem withNextId (h : Follows r plans b b') (nextId : Nat) :
    Follows r plans { b with nextId } { b' with nextId } :=
  ⟨by rw [h.eq_relabel]; rfl, h.admits, h.keeps, h.plan⟩

theorem withStack (h : Follows r plans b b') {stack : List OpenElement}
    (hadmits : ∀ element ∈ stack, r.Admits element.name) :
    Follows r plans { b with stack } { b' with stack := stack.map r.openElement } :=
  ⟨by rw [h.eq_relabel]; rfl, hadmits, h.keeps, h.plan⟩

end Follows

/-! ## The walk -/

/-- Two walks, of which the second is the first with other names. -/
structure Walk.Follows (r : Relabeling) (plans : Plan → Prop) (walk walk' : Walk) : Prop where
  builder : Builder.Follows r plans walk.builder walk'.builder
  kept_eq : walk'.kept = walk.kept.map r.openElement
  admits_kept : ∀ element ∈ walk.kept, r.Admits element.name
  subtree_eq : walk'.subtree = walk.subtree.relabel r
  bookmark_eq : walk'.bookmark = walk.bookmark

/-- A renewed formatting element keeps its name in the tree. -/
theorem relabel_renewed {tag : Tag} (htag : isReserved tag.name = true)
    (haccepts : r.AcceptsTag tag)
    (id : Nat) (children : List Dom) :
    Dom.relabel r (.element id ⟨.html, tag.name⟩ (htmlAttributes tag) children) =
      .element id ⟨.html, tag.name⟩ (htmlAttributes tag) (Dom.relabelAll r children) := by
  rw [Dom.relabel, r.title_eq_self htag, haccepts.htmlAttributes_eq]

theorem openElement_renewed {tag : Tag} (htag : isReserved tag.name = true) (id : Nat) :
    r.openElement ⟨id, ⟨.html, tag.name⟩⟩ = ⟨id, ⟨.html, tag.name⟩⟩ := by
  rw [openElement, elementName, rename_eq_self htag]

theorem Walk.Follows.walkDown {walk walk' : Walk} (h : Walk.Follows r plans walk walk')
    (passed : Nat) (below : List OpenElement) :
    Walk.Follows r plans (walkDown passed walk below)
      (walkDown passed walk' (below.map r.openElement)) := by
  induction below generalizing passed walk walk' with
  | nil => exact h
  | cons element below ih =>
    unfold Builder.walkDown
    rw [List.map_cons]
    dsimp only
    rw [h.builder.formatting_eq, h.builder.nextId_eq, h.kept_eq, h.subtree_eq, h.bookmark_eq]
    have hid : (r.openElement element).id = element.id := rfl
    rw [hid]
    split
    · next id tag hfound =>
      obtain ⟨hformatting, haccepts⟩ := h.builder.keeps _ (List.mem_of_find?_eq_some hfound)
      have htag := isReserved_formattingTags _ hformatting
      split
      · refine ih ?_ _
        exact ⟨h.builder.removeFormatting element.id, rfl, h.admits_kept, rfl, rfl⟩
      · refine ih ?_ _
        have hkeeps : ∀ entry ∈ walk.builder.formatting.map fun entry ↦
            if entry.id? == some element.id then .element walk.builder.nextId tag else entry,
            r.Keeps entry := by
          intro entry hmem
          obtain ⟨before, hbefore, rfl⟩ := List.mem_map.1 hmem
          split
          · exact ⟨hformatting, haccepts⟩
          · exact h.builder.keeps before hbefore
        exact {
          builder := (h.builder.withFormatting hkeeps).withNextId _
          kept_eq := by rw [List.map_cons, openElement_renewed htag]
          admits_kept :=
            List.forall_mem_cons.2 ⟨haccepts.admits_tagName .html, h.admits_kept⟩
          subtree_eq := by
            rw [relabel_renewed htag haccepts, Dom.relabelAll, Dom.relabelAll]
          bookmark_eq := rfl }
    · exact ih h _

/-! ## Moving the furthest block -/

theorem relabel_wrapChildren {tag : Tag} (htag : isReserved tag.name = true)
    (haccepts : r.AcceptsTag tag) (id new : Nat) (tree : Dom) :
    wrapChildren id new tag (tree.relabel r) = (wrapChildren id new tag tree).relabel r := by
  have hchange (children : List Dom) :
      [Dom.element new ⟨.html, tag.name⟩ (htmlAttributes tag) (Dom.relabelAll r children)] =
        Dom.relabelAll r [.element new ⟨.html, tag.name⟩ (htmlAttributes tag) children] := by
    rw [Dom.relabelAll, Dom.relabelAll, relabel_renewed htag haccepts]
  rw [wrapChildren, wrapChildren, Dom.update?_relabel hchange]
  cases Dom.update? id _ tree <;> rfl

theorem movedStack_map {new : OpenElement} (hnew : r.openElement new = new) (formatting block : Nat)
    (stack : List OpenElement) :
    movedStack formatting block new (stack.map r.openElement) =
      (movedStack formatting block new stack).map r.openElement := by
  rw [movedStack, movedStack, filter_map_openElement (sees_id (· != formatting)),
    List.flatMap_map, List.map_flatMap]
  refine List.flatMap_congr fun element _ ↦ ?_
  have hid : (r.openElement element).id = element.id := rfl
  rw [hid]
  split
  · rw [List.map_cons, List.map_singleton, hnew]
  · rw [List.map_singleton]

namespace Follows

/-- The furthest block is moved in both builders. -/
theorem moveBlock {walk walk' : Walk} (h : Walk.Follows r plans walk walk') {id : Nat} {tag : Tag}
    (hformatting : tag.name ∈ formattingTags) (haccepts : r.AcceptsTag tag) {block : OpenElement}
    {above below : List OpenElement} (hblock : r.Admits block.name)
    (habove : ∀ element ∈ above, r.Admits element.name) :
    Follows r plans (Builder.moveBlock walk id tag block above below)
      (Builder.moveBlock walk' id tag (r.openElement block) (above.map r.openElement)
        (below.map r.openElement)) := by
  have hstack : ∀ element ∈ above ++ block :: walk.kept.reverse ++
      walk.builder.stack.dropWhile (·.id != id), r.Admits element.name := by
    simp only [List.forall_mem_append, List.forall_mem_cons, List.mem_reverse]
    exact ⟨⟨habove, hblock, h.admits_kept⟩, fun element hmem ↦
      h.builder.admits element ((List.dropWhile_sublist _).subset hmem)⟩
  have hstack' : above.map r.openElement ++ r.openElement block :: walk'.kept.reverse ++
      walk'.builder.stack.dropWhile (·.id != id) =
        (above ++ block :: walk.kept.reverse ++
          walk.builder.stack.dropWhile (·.id != id)).map r.openElement := by
    rw [h.kept_eq, h.builder.stack_eq,
      dropWhile_map_openElement (fun element _ ↦ sees_id (· != id) element), List.map_append,
      List.map_append, List.map_cons, List.map_reverse]
  have hopen := h.builder.withStack hstack
  have hinserted := hopen.insertInto (below.headD ⟨0, ⟨.html, "html"⟩⟩) walk.subtree
  unfold Builder.moveBlock
  dsimp only
  rw [hstack', h.subtree_eq, headD_map_openElement, h.bookmark_eq]
  generalize Builder.insertAt _ _ walk.subtree = inserted at hinserted ⊢
  generalize Builder.insertAt _ _ (walk.subtree.relabel r) = inserted' at hinserted ⊢
  have htag := isReserved_formattingTags _ hformatting
  have hnew : r.Keeps (.element inserted.nextId tag) := ⟨hformatting, haccepts⟩
  have hwrapped := ((hinserted.withTree (wrapChildren block.id inserted.nextId tag
    inserted.tree)).withNextId (inserted.nextId + 2)).withFormatting
      (forall_mem_replaceFormatting hnew hinserted.keeps id walk.bookmark)
  have hadmits : ∀ element ∈ movedStack id block.id ⟨inserted.nextId, ⟨.html, tag.name⟩⟩
      inserted.stack, r.Admits element.name :=
    forall_mem_movedStack (haccepts.admits_tagName .html) hinserted.admits id block.id
  have hmoved := hwrapped.withStack hadmits
  rw [← movedStack_map (openElement_renewed htag _), ← relabel_wrapChildren htag haccepts,
    ← hinserted.stack_eq] at hmoved
  obtain rfl := hinserted.eq_relabel
  exact hmoved

/-- Are more rounds to come? The same in both builders, which have made the same step. -/
theorem adoptOnce (h : Follows r plans b b') {name : String} (hname : isReserved name = true) :
    Follows r plans (b.adoptOnce name).1 (b'.adoptOnce name).1 ∧
      (b'.adoptOnce name).2 = (b.adoptOnce name).2 := by
  unfold Builder.adoptOnce recentFormatting
  rw [h.formatting_eq]
  dsimp only
  split
  · next id tag hfound =>
    obtain ⟨htag, haccepts⟩ := h.keeps _
      ((List.takeWhile_sublist _).subset (List.mem_of_find?_eq_some hfound))
    rw [h.inScopeWhere_eq sees_defaultScope (sees_id (· == id)), h.stack_eq,
      any_map_openElement (sees_id (· == id)), takeWhile_map_openElement (sees_id (· != id)),
      dropWhile_map_openElement fun element _ ↦ sees_id (· != id) element]
    split
    · exact ⟨h.removeFormatting id, rfl⟩
    · split
      · exact ⟨h, rfl⟩
      · have habove : ∀ element ∈ b.stack.takeWhile (·.id != id), r.Admits element.name :=
          fun element hmem ↦ h.admits element ((List.takeWhile_sublist _).subset hmem)
        rw [← List.map_reverse, find?_map_openElement (sees_isHtmlIn isReserved_specialTags)]
        cases hblock : (b.stack.takeWhile (·.id != id)).reverse.find?
            (·.isHtmlIn specialTags) with
        | none =>
          rw [← List.map_tail]
          exact ⟨(h.removeFormatting id).withStack fun element hmem ↦ h.admits element
            (((List.tail_sublist _).trans (List.dropWhile_sublist _)).subset hmem), rfl⟩
        | some block =>
          have hmem : block ∈ b.stack.takeWhile (·.id != id) :=
            List.mem_reverse.1 (List.mem_of_find?_eq_some hblock)
          have hdetach : b'.tree.detach? block.id = (b.tree.detach? block.id).map
              fun found ↦ (found.1.relabel r, found.2.relabel r) := by
            rw [h.eq_relabel]
            exact Dom.detach?_relabel block.id b.tree
          have hid : (r.openElement block).id = block.id := rfl
          simp only [Option.map_some, hid, hdetach]
          cases b.tree.detach? block.id with
          | none => exact ⟨h, rfl⟩
          | some detached =>
            have hstart : Walk.Follows r plans ⟨{ b with tree := detached.2 }, [], detached.1, none⟩
                ⟨{ b' with tree := detached.2.relabel r }, [], detached.1.relabel r, none⟩ :=
              ⟨h.withTree detached.2, rfl, List.forall_mem_nil _, rfl, rfl⟩
            rw [h.stack_eq, h.formatting_eq] at hstart
            simp only [Option.map_some]
            rw [takeWhile_map_openElement (sees_id (· != block.id)),
              dropWhile_map_openElement fun element _ ↦ sees_id (· != block.id) element,
              ← List.map_tail, ← List.map_tail]
            exact ⟨moveBlock (hstart.walkDown 0 _) htag haccepts (habove block hmem)
              fun element hmem ↦ habove element ((List.takeWhile_sublist _).subset hmem), trivial⟩
  · exact ⟨h.closeOrdinary fun element _ ↦ r.rename_eq_iff hname, rfl⟩

theorem adopt (h : Follows r plans b b') (rounds : Nat) {name : String}
    (hname : isReserved name = true) :
    Follows r plans (Builder.adopt rounds name b) (Builder.adopt rounds name b') := by
  induction rounds generalizing b b' with
  | zero => exact h
  | succ rounds ih =>
    obtain ⟨honce, hmore⟩ := h.adoptOnce hname
    unfold Builder.adopt
    generalize b.adoptOnce name = step at honce hmore
    generalize b'.adoptOnce name = step' at honce hmore
    obtain ⟨next, more⟩ := step
    obtain ⟨next', more'⟩ := step'
    obtain rfl : more' = more := hmore
    cases more' with
    | true => exact ih honce
    | false => exact honce

theorem closeFormatting (h : Follows r plans b b') {name : String}
    (hname : isReserved name = true) :
    Follows r plans (b.closeFormatting name) (b'.closeFormatting name) := by
  have hformatting : b'.isFormatting b'.current.id = b.isFormatting b.current.id := by
    rw [isFormatting, h.formatting_eq, h.current_eq]
    rfl
  refine ite ?_ (fun _ ↦ h.pop) fun _ ↦ h.adopt 8 hname
  rw [h.isHtml_current hname, hformatting]

theorem closeOpenLink (h : Follows r plans b b') :
    Follows r plans b.closeOpenLink b'.closeOpenLink := by
  unfold Builder.closeOpenLink recentFormatting
  rw [h.formatting_eq]
  dsimp only
  split
  · exact ((h.closeFormatting (by decide)).removeFormatting _).removeOpen _
  · exact h

end Follows

end NotebookTree.Html.Builder
