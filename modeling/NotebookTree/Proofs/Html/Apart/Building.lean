import NotebookTree.Proofs.Html.Apart.Stack

/-!
# Building trees without adjacent texts

A builder is tidy if its families fit the open elements, and if the numbers that it may still take
out of the stack, of formatting elements and of the form, belong to no frame. Each operation of a
builder keeps it tidy. The one that matters is the move of the furthest block: the block leaves one
family for another, and renewed elements come between it and its children.
-/

namespace NotebookTree.Html

namespace Builder

variable {known : List Nat} {stack above below : List OpenElement} {element : OpenElement}
  {next : Nat} {b : Builder}

theorem isFree_opened {id next' : Nat} (h : IsFree stack next id) {stack' : List OpenElement}
    (hle : next ≤ next') (hnew : ∀ x ∈ stack', x ∈ stack ∨ next ≤ x.id) :
    IsFree stack' next' id := by
  refine ⟨Nat.lt_of_lt_of_le h.lt hle, fun x hx hmodal ↦ ?_⟩
  rcases hnew x hx with hold | hnew
  · exact h.ne x hold hmodal
  · exact Nat.ne_of_gt (Nat.lt_of_lt_of_le h.lt hnew)

theorem entry_isFree_opened {entry : FormattingEntry} {next' : Nat} (h : entry.IsFree stack next)
    {stack' : List OpenElement} (hle : next ≤ next')
    (hnew : ∀ x ∈ stack', x ∈ stack ∨ next ≤ x.id) : entry.IsFree stack' next' := by
  cases entry with
  | marker => trivial
  | element id tag => exact ⟨h.1, isFree_opened h.2 hle hnew⟩

/-- The numbers that may be taken out of the stack belong to no frames: those of formatting
elements, that of the form, and further ones that are known. -/
structure Recalls (known : List Nat) (stack : List OpenElement) (next : Nat)
    (formatting : List FormattingEntry) (form : Option Nat) : Prop where
  formatting : ∀ entry ∈ formatting, entry.IsFree stack next
  form : ∀ id, form = some id → IsFree stack next id
  known : ∀ id ∈ known, IsFree stack next id

/-- Elements that are opened have new numbers. -/
theorem Recalls.opened {formatting : List FormattingEntry} {form : Option Nat}
    (h : Recalls known stack next formatting form) {stack' : List OpenElement} {next' : Nat}
    (hle : next ≤ next') (hnew : ∀ x ∈ stack', x ∈ stack ∨ next ≤ x.id) :
    Recalls known stack' next' formatting form where
  formatting entry hmem := entry_isFree_opened (h.formatting entry hmem) hle hnew
  form id hform := isFree_opened (h.form id hform) hle hnew
  known id hknown := isFree_opened (h.known id hknown) hle hnew

/-- An ordinary element is opened among others, and its number may be recalled as well. -/
theorem Recalls.insert {formatting : List FormattingEntry} {form : Option Nat}
    (h : Recalls known (above ++ below) next formatting form)
    (hstacked : Stacked (above ++ below) next) {name : String}
    (hname : isModalName name = false) :
    Recalls known (above ++ ⟨next, ⟨.html, name⟩⟩ :: below) (next + 2) formatting form ∧
      IsFree (above ++ ⟨next, ⟨.html, name⟩⟩ :: below) (next + 2) next := by
  refine ⟨h.opened (Nat.le_add_right _ _) fun x hx ↦ ?_, Nat.lt_add_of_pos_right Nat.two_pos,
    fun x hx hmodal ↦ ?_⟩
  · rcases mem_insert_iff.1 hx with rfl | hx
    · exact .inr (Nat.le_refl _)
    · exact .inl hx
  · rcases mem_insert_iff.1 hx with rfl | hx
    · cases hname.symm.trans hmodal
    · exact Nat.ne_of_lt (hstacked.lt x hx _ x.owns_id)

/-- The families fit the open elements, and numbers that are recalled belong to no frames. -/
structure Tidy (known : List Nat) (b : Builder) : Prop where
  stacked : Stacked b.stack b.nextId
  families : b.tree.Families (Fits b.stack b.nextId)
  recalls : Recalls known b.stack b.nextId b.formatting b.form

theorem tidy_empty : empty.Tidy [] where
  stacked := {
    pos := Nat.one_pos
    lt := by
      intro element hmem n howns
      rw [List.mem_singleton.1 hmem] at howns
      rcases howns with rfl | rfl <;> exact Nat.one_pos
    distinct := List.pairwise_singleton _ _
    wrapper := by
      intro element hmem _
      rw [List.mem_singleton.1 hmem]
      rfl
    lowest := List.pairwise_singleton _ _
    braced := ⟨fun _ ↦ nofun, trivial⟩ }
  families := ⟨.of_forall_ne Nat.one_pos .nil fun _ ↦ List.not_mem_nil, trivial⟩
  recalls := ⟨List.forall_mem_nil _, nofun, List.forall_mem_nil _⟩

namespace Tidy

/-- A choice between tidy builders is tidy. -/
theorem ite {c : Prop} [Decidable c] {yes no : Builder} (hyes : c → yes.Tidy known)
    (hno : ¬c → no.Tidy known) : (if c then yes else no).Tidy known := by
  split
  · next h => exact hyes h
  · next h => exact hno h

/-- Only the tree, the numbers and the elements that are open or recalled matter. -/
theorem of_eq (h : b.Tidy known) {b' : Builder} (htree : b'.tree = b.tree)
    (hnext : b'.nextId = b.nextId) (hstack : b'.stack = b.stack)
    (hformatting : b'.formatting = b.formatting) (hform : b'.form = b.form) : b'.Tidy known := by
  constructor
  · rw [hstack, hnext]
    exact h.stacked
  · rw [htree, hstack, hnext]
    exact h.families
  · rw [hstack, hnext, hformatting, hform]
    exact h.recalls

/-! ## Closing elements -/

/-- Fewer elements may be open if what stays is braced. -/
theorem withStack (h : b.Tidy known) (hsub : stack.Sublist b.stack) (hbraced : Braced stack) :
    Tidy known { b with stack } where
  stacked := h.stacked.sublist hsub hbraced
  families := h.families.mono fun _ _ hfits ↦ hfits.sublist hsub
  recalls := h.recalls.opened (Nat.le_refl _) fun _ hx ↦ .inl (hsub.subset hx)

/-- The innermost elements may be closed. -/
theorem close (h : b.Tidy known) (hsuffix : stack <:+ b.stack) : Tidy known { b with stack } := by
  obtain ⟨above, habove⟩ := hsuffix
  have hbraced : Braced (above ++ stack) := habove ▸ h.stacked.braced
  exact h.withStack (habove ▸ List.sublist_append_right _ _) hbraced.of_append

theorem pop (h : b.Tidy known) : b.pop.Tidy known :=
  h.close (List.tail_suffix _)

theorem popWhile (h : b.Tidy known) (closes : OpenElement → Bool) :
    (b.popWhile closes).Tidy known :=
  h.close (List.dropWhile_suffix _)

theorem popThrough (h : b.Tidy known) (last : OpenElement → Bool) :
    (b.popThrough last).Tidy known :=
  h.close ((List.tail_suffix _).trans (List.dropWhile_suffix _))

theorem popTag (h : b.Tidy known) (tag : String) : (b.popTag tag).Tidy known :=
  h.popThrough _

theorem closeImpliedExcept (h : b.Tidy known) (kept : List String) :
    (b.closeImpliedExcept kept).Tidy known :=
  h.popWhile _

theorem closeOrdinary (h : b.Tidy known) (name : String) : (b.closeOrdinary name).Tidy known := by
  unfold Builder.closeOrdinary
  split
  · exact h
  · exact (h.closeImpliedExcept [name]).close (List.drop_suffix _ _)

theorem removeOpen (h : b.Tidy known) {id : Nat} (hid : IsFree b.stack b.nextId id) :
    (b.removeOpen id).Tidy known :=
  h.withStack List.filter_sublist (h.stacked.braced.filter_id fun x hx hframe ↦
    hid.ne x hx (OpenElement.isModal_of_isFrame hframe))

/-! ## Inserting nodes -/

theorem insertLeaf (h : b.Tidy known) {node : Dom}
    (hnode : node.Families (Fits b.stack b.nextId)) (hleaf : ∀ id, node.head ≠ .element id) :
    (b.insertAt (b.placeIn b.current) node).Tidy known := by
  have hfamilies := families_insertAt (b.placeIn b.current) h.families (fun _ _ hfits ↦ hfits) hnode
    fun n heads heads' hmeets hgains hfits ↦
      hfits.gains hleaf ((suits_placeIn b).unseen h.stacked hfits hmeets) hgains
  obtain ⟨tree, hinsert⟩ := exists_insertAt_eq_withTree (b := b) (b.placeIn b.current) node
  rw [hinsert] at hfamilies ⊢
  exact ⟨h.stacked, hfamilies, h.recalls⟩

theorem appendText (h : b.Tidy known) (text : List Char) : (b.appendText text).Tidy known :=
  ite (fun _ ↦ h) fun _ ↦ h.insertLeaf trivial nofun

theorem appendComment (h : b.Tidy known) : b.appendComment.Tidy known :=
  h.insertLeaf trivial nofun

/-- A new element fits, and so do the contents of a template. -/
theorem families_newElement (stack : List OpenElement) (id : Nat) (name : ElementName)
    (attributes : List Attribute) :
    (Dom.element id name attributes
      (if name = ⟨.html, "template"⟩ then [Dom.contents (contentsId id) []] else [])).Families
        (Fits stack (id + 2)) := by
  have hlt : id < id + 2 := Nat.lt_add_of_pos_right Nat.two_pos
  split
  · refine ⟨.of_forall_ne hlt (.singleton _) fun other hother ↦ ?_, ⟨.of_forall_ne ?_ .nil ?_,
      trivial⟩, trivial⟩
    · cases List.mem_singleton.1 hother
    · exact Nat.lt_succ_self _
    · exact fun _ ↦ List.not_mem_nil
  · exact ⟨.of_forall_ne hlt .nil fun _ ↦ List.not_mem_nil, trivial⟩

/-- An element is added and opened. -/
theorem insertOpened (h : b.Tidy known) {name : ElementName} (attributes : List Attribute)
    (hhtml : OpenElement.isHtml ⟨b.nextId, name⟩ "html" = false)
    (hpart : OpenElement.isPart ⟨b.nextId, name⟩ = true → Footed b.stack) :
    (b.insertElement true name attributes).Tidy known := by
  have hle : b.nextId ≤ b.nextId + 2 := Nat.le_add_right _ _
  have hbefore : Stacked ([] ++ b.stack) b.nextId := h.stacked
  have hstacked : Stacked ([⟨b.nextId, name⟩] ++ b.stack) (b.nextId + 2) :=
    hbefore.insert (Nat.le_refl _) (Nat.le_refl _) (List.forall_mem_nil _) hhtml
      ⟨hpart, h.stacked.braced⟩
  have hmono (n : Nat) (heads : List Dom.Head) (hfits : Fits ([] ++ b.stack) b.nextId n heads) :
      Fits ([⟨b.nextId, name⟩] ++ b.stack) (b.nextId + 2) n heads :=
    hfits.insert (Nat.le_refl _) hle
  have hfamilies := families_insertAt (b.placeIn b.current) h.families hmono
    (families_newElement _ b.nextId name attributes) fun n heads heads' hmeets hgains hfits ↦
      (hmono n heads hfits).gains_element hstacked List.mem_cons_self (List.pairwise_singleton _ _)
        (fun _ ↦ (suits_placeIn b).unseen h.stacked hfits hmeets)
        (List.forall_mem_singleton.2 fun howns ↦ Nat.not_le_of_lt hfits.lt howns.le) hgains
  obtain ⟨tree, hinsert⟩ := exists_insertAt_eq_withTree (b := b) (b.placeIn b.current)
    (.element b.nextId name attributes
      (if name = ⟨.html, "template"⟩ then [Dom.contents (contentsId b.nextId) []] else []))
  unfold Builder.insertElement
  dsimp only
  rw [hinsert] at hfamilies ⊢
  refine ⟨hstacked, hfamilies, h.recalls.opened hle fun x hx ↦ ?_⟩
  rcases List.mem_cons.1 hx with rfl | hx
  · exact .inr (Nat.le_refl _)
  · exact .inl hx

/-- An element is added, and opened or not. -/
theorem insertElement (h : b.Tidy known) (opened : Bool) {name : ElementName}
    (attributes : List Attribute) (hhtml : OpenElement.isHtml ⟨b.nextId, name⟩ "html" = false)
    (hpart : OpenElement.isPart ⟨b.nextId, name⟩ = true → Footed b.stack) :
    (b.insertElement opened name attributes).Tidy known := by
  have hopened := h.insertOpened attributes hhtml hpart
  cases opened with
  | true => exact hopened
  | false => exact hopened.pop

theorem isHtml_html_eq_false {tag : Tag} {id : Nat} (hname : tag.name ≠ "html") :
    OpenElement.isHtml ⟨id, ⟨.html, tag.name⟩⟩ "html" = false :=
  beq_eq_false_iff_ne.2 hname

theorem isPart_eq_false {tag : Tag} {id : Nat} (hname : tag.name ∉ partTags) :
    OpenElement.isPart ⟨id, ⟨.html, tag.name⟩⟩ = false :=
  decide_eq_false hname

variable {tag : Tag}

/-- A part of a table is opened where it may stand. -/
theorem openPart (h : b.Tidy known) (hname : tag.name ≠ "html")
    (hfooted : tag.name ∈ partTags → Footed b.stack) : (b.openHtml tag).Tidy known :=
  h.insertElement true _ (isHtml_html_eq_false hname) fun hpart ↦ hfooted (of_decide_eq_true hpart)

theorem insertHtml (h : b.Tidy known) (opened : Bool) (hname : tag.name ∉ "html" :: partTags) :
    (b.insertElement opened ⟨.html, tag.name⟩ (htmlAttributes tag)).Tidy known := by
  rw [List.mem_cons, not_or] at hname
  refine h.insertElement opened _ (isHtml_html_eq_false hname.1) fun hpart ↦ ?_
  rw [isPart_eq_false hname.2] at hpart
  cases hpart

theorem openHtml (h : b.Tidy known) (hname : tag.name ∉ "html" :: partTags) :
    (b.openHtml tag).Tidy known :=
  h.insertHtml true hname

theorem addHtml (h : b.Tidy known) (hname : tag.name ∉ "html" :: partTags) :
    (b.addHtml tag).Tidy known :=
  h.insertHtml false hname

theorem openForeign (h : b.Tidy known) {vocabulary : Vocabulary} (hvocabulary : vocabulary ≠ .html)
    (tag : Tag) : (b.openForeign vocabulary tag).Tidy known := by
  have hforeign : (vocabulary == Vocabulary.html) = false := beq_eq_false_iff_ne.2 hvocabulary
  refine h.insertElement _ _ ?_ fun hpart ↦ ?_
  · rw [OpenElement.isHtml, hforeign, Bool.false_and]
  · rw [OpenElement.isPart, OpenElement.isHtmlIn, hforeign, Bool.false_and] at hpart
    cases hpart

/-! ## Formatting elements -/

/-- One more number is known to belong to no frame. -/
theorem remember (h : b.Tidy known) {id : Nat} (hid : IsFree b.stack b.nextId id) :
    b.Tidy (id :: known) :=
  ⟨h.stacked, h.families, { h.recalls with known := List.forall_mem_cons.2 ⟨hid, h.recalls.known⟩ }⟩

theorem forget {id : Nat} (h : b.Tidy (id :: known)) : b.Tidy known :=
  ⟨h.stacked, h.families,
    { h.recalls with known := (List.forall_mem_cons.1 h.recalls.known).2 }⟩

theorem withFormatting (h : b.Tidy known) {formatting : List FormattingEntry}
    (hfree : ∀ entry ∈ formatting, entry.IsFree b.stack b.nextId) :
    Tidy known { b with formatting } :=
  ⟨h.stacked, h.families, { h.recalls with formatting := hfree }⟩

theorem withForm (h : b.Tidy known) {form : Option Nat}
    (hfree : ∀ id, form = some id → IsFree b.stack b.nextId id) : Tidy known { b with form } :=
  ⟨h.stacked, h.families, { h.recalls with form := hfree }⟩

theorem pushMarker (h : b.Tidy known) : b.pushMarker.Tidy known :=
  h.withFormatting (List.forall_mem_cons.2 ⟨trivial, h.recalls.formatting⟩)

theorem clearToMarker (h : b.Tidy known) : b.clearToMarker.Tidy known :=
  h.withFormatting fun entry hmem ↦ h.recalls.formatting entry
    (((List.tail_sublist _).trans (List.dropWhile_sublist _)).subset hmem)

theorem removeFormatting (h : b.Tidy known) (id : Nat) : (b.removeFormatting id).Tidy known :=
  h.withFormatting fun entry hmem ↦ h.recalls.formatting entry (List.mem_filter.1 hmem).1

theorem not_mem_of_isModalName_eq_false (htag : isModalName tag.name = false) :
    tag.name ∉ "html" :: partTags :=
  Html.not_mem_of_isModalName_eq_false htag (by decide)

/-- The number of an element that is opened is free unless it is a modal one. -/
theorem isFree_nextId (h : b.Tidy known) (htag : isModalName tag.name = false) :
    IsFree (b.openHtml tag).stack (b.openHtml tag).nextId b.nextId := by
  rw [stack_openHtml, nextId_openHtml]
  refine ⟨Nat.lt_add_of_pos_right Nat.two_pos, List.forall_mem_cons.2 ⟨fun hmodal ↦ ?_, ?_⟩⟩
  · cases htag.symm.trans hmodal
  · exact fun x hx _ ↦ Nat.ne_of_lt (h.stacked.lt x hx _ x.owns_id)

theorem entry_isFree_openHtml {entry : FormattingEntry} (hentry : entry.IsFree b.stack b.nextId)
    (tag : Tag) : entry.IsFree (b.openHtml tag).stack (b.openHtml tag).nextId := by
  rw [stack_openHtml, nextId_openHtml]
  refine entry_isFree_opened hentry (Nat.le_add_right _ _) fun x hx ↦ ?_
  rcases List.mem_cons.1 hx with rfl | hx
  · exact .inr (Nat.le_refl _)
  · exact .inl hx

theorem reopen (h : b.Tidy known) {done closed : List FormattingEntry}
    (hdone : ∀ entry ∈ done, entry.IsFree b.stack b.nextId)
    (hclosed : ∀ entry ∈ closed, entry.IsFree b.stack b.nextId) :
    (b.reopen done closed).Tidy known := by
  induction closed generalizing b done with
  | nil => exact h.withFormatting hdone
  | cons entry rest ih =>
    obtain ⟨hentry, hrest⟩ := List.forall_mem_cons.1 hclosed
    cases entry with
    | marker => exact ih h (List.forall_mem_cons.2 ⟨trivial, hdone⟩) hrest
    | element id tag =>
      refine ih (h.openHtml (not_mem_of_isModalName_eq_false hentry.1))
        (List.forall_mem_cons.2 ⟨⟨hentry.1, h.isFree_nextId hentry.1⟩, fun other hmem ↦ ?_⟩)
        fun other hmem ↦ entry_isFree_openHtml (hrest other hmem) tag
      exact entry_isFree_openHtml (hdone other hmem) tag

theorem reopenFormatting (h : b.Tidy known) : b.reopenFormatting.Tidy known := by
  refine h.reopen (fun entry hmem ↦ ?_) fun entry hmem ↦ ?_
  · exact h.recalls.formatting entry (List.mem_of_mem_drop hmem)
  · rw [List.mem_reverse] at hmem
    exact h.recalls.formatting entry ((List.takeWhile_sublist _).subset hmem)

theorem openFormatting (h : b.Tidy known) (htag : isModalName tag.name = false) :
    (b.openFormatting tag).Tidy known := by
  have hopen {b' : Builder} (h' : b'.Tidy known) :
      Tidy known { b'.openHtml tag with
        formatting := .element b'.nextId tag :: (b'.openHtml tag).formatting } := by
    have hopened := h'.openHtml (not_mem_of_isModalName_eq_false htag)
    exact hopened.withFormatting
      (List.forall_mem_cons.2 ⟨⟨htag, h'.isFree_nextId htag⟩, hopened.recalls.formatting⟩)
  unfold Builder.openFormatting
  apply hopen
  split
  · split
    · exact h.removeFormatting _
    · exact h
  · exact h

end Tidy

end Builder

end NotebookTree.Html
