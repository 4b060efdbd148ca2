import NotebookTree.Html.Modes
import NotebookTree.Proofs.Html.Spine

/-!
# Builders that add at the end

A builder is steady when the elements that are open lie on the spine of its tree, in their order,
and it reads markup. What it inserts then comes last in the document.

The operations of a builder keep it steady. Closing elements leaves fewer of them open. Opening
again formatting elements inserts elements that are empty. Closing a formatting element with a
special element inside it moves that element, with all that comes last, behind everything else,
which is where it was.
-/

namespace NotebookTree.Html

variable {w : Watch} {mode : Mode}

/-- Neither a template nor a leaf, and foreign only if foreign elements may be there. -/
structure ElementName.IsPlain (w : Watch) (name : ElementName) : Prop where
  not_template : name ≠ ⟨.html, "template"⟩
  not_leaf : ¬w.isLeaf name.name
  html : w.foreign = false → name.vocabulary = .html

/-- The tag of such an element of HTML. -/
def Tag.IsPlain (w : Watch) (tag : Tag) : Prop :=
  (⟨.html, tag.name⟩ : ElementName).IsPlain w

/-- A marker, or such an element. -/
def FormattingEntry.IsPlain (w : Watch) : FormattingEntry → Prop
  | marker => True
  | element _ tag => tag.IsPlain w

/-- An HTML element is plain if it is neither a template nor a stand-in. -/
theorem ElementName.isPlain_html {name : String} (htemplate : name ≠ "template")
    (hstandIn : name ≠ standInTag) : (⟨.html, name⟩ : ElementName).IsPlain w :=
  ⟨fun heq ↦ htemplate (congrArg ElementName.name heq), w.not_isLeaf hstandIn, fun _ ↦ rfl⟩

theorem OpenElement.isHtml_template_eq_false {element : OpenElement}
    (h : element.name ≠ ⟨.html, "template"⟩) : element.isHtml "template" = false := by
  obtain ⟨id, vocabulary, name⟩ := element
  simpa [OpenElement.isHtml] using h

/-- A list without repetition is cut in two at an element of a part of it, and the part with it. -/
theorem exists_append_of_append_sublist {ids before after : List Nat} {id : Nat}
    (h : (before ++ id :: after).Sublist ids) (hids : ids.Nodup) :
    ∃ before' after', ids = before' ++ id :: after' ∧ id ∉ before' ∧
      before.Sublist before' ∧ after.Sublist after' := by
  obtain ⟨first, second, rfl, hfirst, hsecond⟩ := List.append_sublist_iff.1 h
  obtain ⟨third, fourth, rfl, hmem, hfourth⟩ := List.cons_sublist_iff.1 hsecond
  obtain ⟨fifth, sixth, rfl⟩ := List.append_of_mem hmem
  refine ⟨first ++ fifth, sixth ++ fourth, by simp, ?_, ?_, ?_⟩
  · intro hmem'
    have hnodup : ((first ++ fifth) ++ id :: (sixth ++ fourth)).Nodup := by simpa using hids
    exact (List.nodup_append.1 hnodup).2.2 id hmem' id List.mem_cons_self rfl
  · exact hfirst.trans (List.sublist_append_left _ _)
  · exact hfourth.trans (List.sublist_append_right _ _)

/-- New numbers, each once, may be put between old ones. -/
theorem nodup_append_append {before new after : List Nat} (next : Nat)
    (hold : (before ++ after).Nodup) (hlt : ∀ id ∈ before ++ after, id < next)
    (hnew : new.Nodup) (hle : ∀ id ∈ new, next ≤ id) : (before ++ (new ++ after)).Nodup := by
  rw [List.nodup_append] at hold
  simp only [List.mem_append] at hlt
  rw [List.nodup_append, List.nodup_append]
  refine ⟨hold.1, ⟨hnew, hold.2.1, ?_⟩, ?_⟩
  · rintro id hid _ hid' rfl
    exact Nat.not_lt.2 (hle id hid) (hlt id (.inr hid'))
  · rintro id hid _ hid' rfl
    rcases List.mem_append.1 hid' with hid' | hid'
    · exact Nat.not_lt.2 (hle id hid') (hlt id (.inl hid))
    · exact hold.2.2 id hid id hid' rfl

namespace Builder

/-- The numbers of the open elements, the outermost first. -/
def openIds (stack : List OpenElement) : List Nat :=
  stack.reverse.map (·.id)

/-- The builder reads markup in the given mode, its tree has the given marks, and its open elements
lie on the spine of the tree. -/
structure Steady (w : Watch) (mode : Mode) (marks : List Mark) (b : Builder) : Prop where
  marks_eq : b.tree.marks w = marks
  root : ∃ ids, b.tree.spine w = 0 :: ids
  nodup_spine : (b.tree.spine w).Nodup
  lt_nextId : ∀ id ∈ b.tree.spine w, id < b.nextId
  openIds_sublist : (openIds b.stack).Sublist (b.tree.spine w)
  stack_isPlain : ∀ element ∈ b.stack, element.name.IsPlain w
  formatting_isPlain : ∀ entry ∈ b.formatting, entry.IsPlain w
  mode_eq : b.mode = mode
  reading_eq : b.reading = .markup
  fostering_eq : b.fostering = false
  dropLineFeed_eq : b.dropLineFeed = false

variable {ms : List Mark} {b : Builder}

/-! ## Inserting nodes -/

/-- A node that belongs into an element of the spine comes last in the document. -/
theorem exists_insertAt_eq {target : OpenElement} {before after : List Nat}
    (hfostering : b.fostering = false) (htemplate : target.name ≠ ⟨.html, "template"⟩)
    (hspine : b.tree.spine w = before ++ target.id :: after) (hfresh : target.id ∉ before)
    (node : Dom) :
    ∃ tree, b.insertAt (b.placeIn target) node = { b with tree } ∧
      tree.marks w = b.tree.marks w ++ node.marks w ∧
      tree.spine w = before ++ target.id :: node.spine w := by
  obtain ⟨tree, hupdate, hmarks, htree⟩ := Dom.exists_update?_eq (fun _ ↦ node.spine w)
    (Dom.marksAll_push node) (Dom.spineFirst_push node) hspine hfresh
  have hplace : b.placeIn target = .last target.id := by
    rw [placeIn, hfostering, Place.inside, OpenElement.isHtml_template_eq_false htemplate]
    rfl
  refine ⟨tree, ?_, hmarks, htree⟩
  simp only [hplace, insertAt, hupdate, Option.getD_some]

theorem openIds_append (above below : List OpenElement) :
    openIds (above ++ below) = openIds below ++ openIds above := by
  simp only [openIds, List.reverse_append, List.map_append]

/-- Of elements that lie on a spine, the innermost lies behind the others. Without elements it is
the root. -/
theorem exists_append_of_openIds_sublist {stack : List OpenElement} {ids rest : List Nat}
    (h : (openIds stack).Sublist ids) (hids : ids.Nodup) (hroot : ids = 0 :: rest) :
    ∃ before after, ids = before ++ (stack.headD ⟨0, ⟨.html, "html"⟩⟩).id :: after ∧
      (stack.headD ⟨0, ⟨.html, "html"⟩⟩).id ∉ before ∧
      (openIds stack).Sublist (before ++ [(stack.headD ⟨0, ⟨.html, "html"⟩⟩).id]) := by
  cases stack with
  | nil => exact ⟨[], rest, hroot, List.not_mem_nil, List.nil_sublist _⟩
  | cons element below =>
    have hsub : (openIds below ++ [element.id]).Sublist ids := by simpa [openIds] using h
    obtain ⟨before, after, hspine, hfresh, hbelow, -⟩ := exists_append_of_append_sublist hsub hids
    refine ⟨before, after, hspine, hfresh, ?_⟩
    have happend := hbelow.append_right [element.id]
    simpa [openIds] using happend

theorem headD_isPlain {stack : List OpenElement}
    (h : ∀ element ∈ stack, element.name.IsPlain w) :
    (stack.headD ⟨0, ⟨.html, "html"⟩⟩).name.IsPlain w := by
  cases stack with
  | nil => exact ElementName.isPlain_html (by decide) (by decide)
  | cons element below => exact h element List.mem_cons_self

namespace Steady

/-- What is inserted into the current element comes last in the document. -/
theorem exists_insert_eq (h : b.Steady w mode ms) (node : Dom) :
    ∃ before tree, b.insertAt (b.placeIn b.current) node = { b with tree } ∧
      tree.marks w = ms ++ node.marks w ∧
      tree.spine w = (before ++ [b.current.id]) ++ node.spine w ∧
      (before ++ [b.current.id]) <+: b.tree.spine w ∧
      (openIds b.stack).Sublist (before ++ [b.current.id]) := by
  obtain ⟨rest, hroot⟩ := h.root
  obtain ⟨before, after, hspine, hfresh, hopen⟩ :=
    exists_append_of_openIds_sublist h.openIds_sublist h.nodup_spine hroot
  obtain ⟨tree, hinsert, hmarks, htree⟩ :=
    exists_insertAt_eq h.fostering_eq (headD_isPlain h.stack_isPlain).not_template hspine hfresh
      node
  refine ⟨before, tree, hinsert, by rw [hmarks, h.marks_eq], ?_, ⟨after, ?_⟩, hopen⟩
  · rw [htree, List.append_assoc, List.singleton_append]
    rfl
  · rw [hspine, List.append_assoc, List.singleton_append]
    rfl

/-- A new tree whose spine goes on from a part of the old one keeps the builder steady, with any
elements of the new spine open. -/
theorem graft (h : b.Steady w mode ms) {tree : Dom} {kept new : List Nat} {next : Nat}
    {stack : List OpenElement} (hspine : tree.spine w = kept ++ new)
    (hkept : kept <+: b.tree.spine w) (hne : kept ≠ []) (hnodup : (kept ++ new).Nodup)
    (hlt : ∀ id ∈ new, id < next) (hnext : b.nextId ≤ next)
    (hstack : (openIds stack).Sublist (kept ++ new))
    (hplain : ∀ element ∈ stack, element.name.IsPlain w) :
    Steady w mode (tree.marks w) { b with tree, nextId := next, stack } where
  marks_eq := rfl
  root := by
    obtain ⟨ids, hids⟩ := h.root
    cases kept with
    | nil => exact absurd rfl hne
    | cons first kept =>
      rw [hids, List.cons_prefix_cons] at hkept
      exact ⟨kept ++ new, by rw [hspine, hkept.1]; rfl⟩
  nodup_spine := hspine ▸ hnodup
  lt_nextId := by
    rw [hspine]
    intro id hid
    rcases List.mem_append.1 hid with hid | hid
    · exact Nat.lt_of_lt_of_le (h.lt_nextId id (hkept.subset hid)) hnext
    · exact hlt id hid
  openIds_sublist := hspine ▸ hstack
  stack_isPlain := hplain
  formatting_isPlain := h.formatting_isPlain
  mode_eq := h.mode_eq
  reading_eq := h.reading_eq
  fostering_eq := h.fostering_eq
  dropLineFeed_eq := h.dropLineFeed_eq

theorem appendText (h : b.Steady w mode ms) (text : List Char) :
    (b.appendText text).Steady w mode (ms ++ text.map .char) := by
  unfold Builder.appendText
  split
  · next hempty =>
    rw [List.isEmpty_iff.1 hempty, List.map_nil, List.append_nil]
    exact h
  · obtain ⟨before, tree, hinsert, hmarks, hspine, hkept, hopen⟩ :=
      h.exists_insert_eq (.text text)
    have hnil : (Dom.text text).spine w = [] := by simp [Dom.spine]
    rw [Dom.marks] at hmarks
    rw [hnil] at hspine
    rw [hinsert, ← hmarks]
    refine h.graft hspine hkept (by simp) ?_ (by simp) (Nat.le_refl _) ?_ h.stack_isPlain
    · rw [List.append_nil]
      exact h.nodup_spine.sublist hkept.sublist
    · rwa [List.append_nil]

/-- What is inserted has no marks of its own if it is no leaf. The contents of a template have none
either. -/
theorem insertElement_of_not_leaf (h : b.Steady w mode ms) (opened : Bool) {name : ElementName}
    (hleaf : ¬w.isLeaf name.name) (hopened : opened = true → name.IsPlain w)
    (attributes : List Attribute) : (b.insertElement opened name attributes).Steady w mode ms := by
  obtain ⟨children, hchildren, hnone, hend⟩ : ∃ children : List Dom,
      (if name = ⟨.html, "template"⟩ then [Dom.contents (contentsId b.nextId) []] else []) =
        children ∧ Dom.marksAll w children = [] ∧ Dom.spineFirst w children = [] := by
    refine ⟨_, rfl, ?_, ?_⟩
    · split <;> rfl
    · split
      · simp only [Dom.spineFirst, Dom.spine]
      · rfl
  obtain ⟨before, tree, hinsert, hmarks, hspine, hkept, hopen⟩ :=
    h.exists_insert_eq (.element b.nextId name attributes children)
  rw [Dom.marks, if_neg hleaf, hnone, List.append_nil] at hmarks
  rw [Dom.spine, if_neg hleaf, hend] at hspine
  have hnodup : ((before ++ [b.current.id]) ++ ([b.nextId] ++ [])).Nodup := by
    refine nodup_append_append b.nextId ?_ ?_ (by simp) (by simp)
    · rw [List.append_nil]
      exact h.nodup_spine.sublist hkept.sublist
    · rw [List.append_nil]
      exact fun id hid ↦ h.lt_nextId id (hkept.subset hid)
  rw [Builder.insertElement, hchildren, hinsert, ← hmarks]
  cases opened with
  | false =>
    exact h.graft hspine hkept (by simp) hnodup (by simp) (Nat.le_add_right _ 2)
      (hopen.trans (List.sublist_append_left _ _)) h.stack_isPlain
  | true =>
    refine h.graft hspine hkept (by simp) hnodup (by simp) (Nat.le_add_right _ 2) ?_ ?_
    · exact (openIds_append [⟨b.nextId, name⟩] b.stack) ▸ hopen.append (List.Sublist.refl _)
    · exact List.forall_mem_cons.2 ⟨hopened rfl, h.stack_isPlain⟩

theorem insertElement (h : b.Steady w mode ms) (opened : Bool) {name : ElementName}
    (hname : name.IsPlain w) (attributes : List Attribute) :
    (b.insertElement opened name attributes).Steady w mode ms :=
  h.insertElement_of_not_leaf opened hname.not_leaf (fun _ ↦ hname) attributes

theorem openHtml (h : b.Steady w mode ms) {tag : Tag} (htag : tag.IsPlain w) :
    (b.openHtml tag).Steady w mode ms :=
  h.insertElement true htag _

theorem addHtml (h : b.Steady w mode ms) {tag : Tag} (htag : tag.IsPlain w) :
    (b.addHtml tag).Steady w mode ms :=
  h.insertElement false htag _

/-! ## Closing elements -/

/-- Fewer elements may be open. -/
theorem withStack (h : b.Steady w mode ms) {stack : List OpenElement}
    (hstack : stack.Sublist b.stack) : Steady w mode ms { b with stack } :=
  { h with
    openIds_sublist := (hstack.reverse.map _).trans h.openIds_sublist
    stack_isPlain := fun element hmem ↦ h.stack_isPlain element (hstack.subset hmem) }

theorem pop (h : b.Steady w mode ms) : b.pop.Steady w mode ms :=
  h.withStack (List.tail_sublist _)

theorem popWhile (h : b.Steady w mode ms) (closes : OpenElement → Bool) :
    (b.popWhile closes).Steady w mode ms :=
  h.withStack (List.dropWhile_sublist _)

theorem popThrough (h : b.Steady w mode ms) (last : OpenElement → Bool) :
    (b.popThrough last).Steady w mode ms :=
  h.withStack ((List.tail_sublist _).trans (List.dropWhile_sublist _))

theorem popTag (h : b.Steady w mode ms) (tag : String) : (b.popTag tag).Steady w mode ms :=
  h.popThrough _

theorem closeImpliedExcept (h : b.Steady w mode ms) (kept : List String) :
    (b.closeImpliedExcept kept).Steady w mode ms :=
  h.popWhile _

theorem closeImplied (h : b.Steady w mode ms) : b.closeImplied.Steady w mode ms :=
  h.closeImpliedExcept []

theorem closeParagraph (h : b.Steady w mode ms) : b.closeParagraph.Steady w mode ms :=
  (h.closeImpliedExcept ["p"]).popTag "p"

theorem closeOpenParagraph (h : b.Steady w mode ms) : b.closeOpenParagraph.Steady w mode ms := by
  unfold Builder.closeOpenParagraph
  split
  · exact h.closeParagraph
  · exact h

theorem removeOpen (h : b.Steady w mode ms) (id : Nat) : (b.removeOpen id).Steady w mode ms :=
  h.withStack List.filter_sublist

theorem closeOrdinary (h : b.Steady w mode ms) (name : String) :
    (b.closeOrdinary name).Steady w mode ms := by
  unfold Builder.closeOrdinary
  split
  · exact h
  · exact (h.closeImpliedExcept [name]).withStack (List.drop_sublist _ _)

/-! ## Formatting elements -/

/-- The formatting elements may be any plain ones. -/
theorem withFormatting (h : b.Steady w mode ms) {formatting : List FormattingEntry}
    (hplain : ∀ entry ∈ formatting, entry.IsPlain w) : Steady w mode ms { b with formatting } :=
  { h with formatting_isPlain := hplain }

theorem pushMarker (h : b.Steady w mode ms) : b.pushMarker.Steady w mode ms :=
  h.withFormatting (List.forall_mem_cons.2 ⟨trivial, h.formatting_isPlain⟩)

theorem clearToMarker (h : b.Steady w mode ms) : b.clearToMarker.Steady w mode ms :=
  h.withFormatting fun entry hmem ↦ h.formatting_isPlain entry
    (((List.tail_sublist _).trans (List.dropWhile_sublist _)).subset hmem)

theorem removeFormatting (h : b.Steady w mode ms) (id : Nat) :
    (b.removeFormatting id).Steady w mode ms :=
  h.withFormatting fun entry hmem ↦ h.formatting_isPlain entry (List.mem_filter.1 hmem).1

theorem reopen {entries done : List FormattingEntry} (h : b.Steady w mode ms)
    (hdone : ∀ entry ∈ done, entry.IsPlain w) (hentries : ∀ entry ∈ entries, entry.IsPlain w) :
    (b.reopen done entries).Steady w mode ms := by
  induction entries generalizing b done with
  | nil => exact h.withFormatting hdone
  | cons entry rest ih =>
    obtain ⟨hentry, hrest⟩ := List.forall_mem_cons.1 hentries
    cases entry with
    | marker => exact ih h (List.forall_mem_cons.2 ⟨trivial, hdone⟩) hrest
    | element id tag =>
      exact ih (h.openHtml hentry) (List.forall_mem_cons.2 ⟨hentry, hdone⟩) hrest

theorem reopenFormatting (h : b.Steady w mode ms) : b.reopenFormatting.Steady w mode ms := by
  refine h.reopen (fun entry hmem ↦ ?_) fun entry hmem ↦ ?_
  · exact h.formatting_isPlain entry (List.mem_of_mem_drop hmem)
  · rw [List.mem_reverse] at hmem
    exact h.formatting_isPlain entry ((List.takeWhile_sublist _).subset hmem)

theorem openFormatting (h : b.Steady w mode ms) {tag : Tag} (htag : tag.IsPlain w) :
    (b.openFormatting tag).Steady w mode ms := by
  have hopen {b' : Builder} (h' : b'.Steady w mode ms) :
      Steady w mode ms { b'.openHtml tag with
        formatting := .element b'.nextId tag :: (b'.openHtml tag).formatting } :=
    (h'.openHtml htag).withFormatting
      (List.forall_mem_cons.2 ⟨htag, (h'.openHtml htag).formatting_isPlain⟩)
  unfold Builder.openFormatting
  apply hopen
  split
  · split
    · exact h.removeFormatting _
    · exact h
  · exact h

end Steady

end Builder

end NotebookTree.Html
