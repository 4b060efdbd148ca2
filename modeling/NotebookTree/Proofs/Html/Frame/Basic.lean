import NotebookTree.Proofs.Html.Tags

/-!
# What content cannot close

The content of a cell or a caption opens and closes elements above that cell, and never the cell
itself or what it stands in: an end tag finds no element beyond the bounds of its search. A builder
is framed by the open elements from the cell down if these are still open, with nothing above the
cell by which the mode would be set. A link below the cell is the only thing that may go.
-/

namespace NotebookTree.Html

open Builder (Closes)

/-- The elements by which the mode is set again, and the parts of tables. -/
def modalTags : List String :=
  ["body", "caption", "col", "colgroup", "frameset", "head", "html", "select", "table", "tbody",
    "td", "template", "tfoot", "th", "thead", "tr"]

/-- Is it one of their names, in any case? -/
def isModalName (name : String) : Bool := Text.lowerAsciiString name ∈ modalTags

/-- Is it such an element? An element of SVG or MathML with such a name is one too, as the end tags
of these would close it. -/
def OpenElement.isModal (element : OpenElement) : Bool := isModalName element.name.name

theorem isModalName_of_mem {name : String} (h : name ∈ modalTags) : isModalName name = true :=
  (show ∀ tag ∈ modalTags, isModalName tag = true by decide) name h

theorem not_mem_of_isModalName_eq_false {name : String} (h : isModalName name = false)
    {tags : List String} (hsub : tags ⊆ modalTags) : name ∉ tags := fun hmem ↦
  Bool.false_ne_true (h.symm.trans (isModalName_of_mem (hsub hmem)))

theorem OpenElement.isModal_of_isHtmlIn {element : OpenElement} {tags : List String}
    (h : element.isHtmlIn tags = true) (hsub : tags ⊆ modalTags) : element.isModal = true := by
  rw [isHtmlIn, Bool.and_eq_true, decide_eq_true_eq] at h
  exact isModalName_of_mem (hsub h.2)

/-- An HTML element of such a tag is modal. -/
theorem OpenElement.isModal_mk {id : Nat} {name : String} (h : name ∈ modalTags) :
    isModal ⟨id, ⟨.html, name⟩⟩ = true :=
  isModalName_of_mem h

/-- An element that is not modal has none of the names. -/
theorem OpenElement.isHtmlIn_eq_false {element : OpenElement} (h : element.isModal = false)
    {tags : List String} (hsub : tags ⊆ modalTags) : element.isHtmlIn tags = false := by
  by_contra hin
  have hmodal := isModal_of_isHtmlIn (by simpa using hin) hsub
  exact Bool.false_ne_true (h.symm.trans hmodal)

/-- The token is no tag of a modal element. -/
def Token.IsOrdinary : Token → Prop
  | startTag tag => isModalName tag.name = false
  | endTag name => isModalName name = false
  | _ => True

/-- The elements for such a token are not modal. -/
theorem Token.IsOrdinary.isModalName_eq_false {token : Token} (h : token.IsOrdinary) {tag : Tag}
    (htag : token.Yields tag) : isModalName tag.name = false := by
  cases htag with
  | own tag => exact h
  | image tag => exact (show isModalName "img" = false by decide)
  | implied hname => exact (show ∀ name ∈ ["br", "p"], isModalName name = false by decide) _ hname

/-! ## Stacks that lose ordinary elements -/

/-- Some elements are not open any more, none of them modal. -/
structure Thinned (before after : List OpenElement) : Prop where
  sublist : after.Sublist before
  filter_eq : after.filter (·.isModal) = before.filter (·.isModal)

namespace Thinned

variable {before between after : List OpenElement} {element : OpenElement}

theorem refl (stack : List OpenElement) : Thinned stack stack := ⟨.refl _, rfl⟩

theorem trans (h : Thinned before between) (h' : Thinned between after) : Thinned before after :=
  ⟨h'.sublist.trans h.sublist, h'.filter_eq.trans h.filter_eq⟩

theorem mem_of_isModal (h : Thinned before after) (hmem : element ∈ after)
    (hmodal : element.isModal = true) : element ∈ before.filter (·.isModal) :=
  h.filter_eq ▸ List.mem_filter.2 ⟨hmem, hmodal⟩

/-- A modal element stays where it is. -/
theorem exists_eq_cons (h : Thinned (element :: before) after) (hmodal : element.isModal = true) :
    ∃ after', after = element :: after' ∧ Thinned before after' := by
  obtain ⟨hsublist, hfilter⟩ := h
  rw [List.filter_cons_of_pos hmodal] at hfilter
  cases hsublist with
  | cons _ hsublist =>
    have hlength := (hsublist.filter (·.isModal)).length_le
    rw [hfilter, List.length_cons] at hlength
    exact absurd hlength (Nat.not_succ_le_self _)
  | cons_cons _ hsublist =>
    rw [List.filter_cons_of_pos hmodal] at hfilter
    exact ⟨_, rfl, hsublist, (List.cons.inj hfilter).2⟩

theorem cons (h : Thinned before after) (element : OpenElement) :
    Thinned (element :: before) (element :: after) := by
  refine ⟨h.sublist.cons_cons element, ?_⟩
  rw [List.filter_cons, List.filter_cons, h.filter_eq]

/-- A number that no modal element has may go. -/
theorem filter_id (h : Thinned before after) {id : Nat}
    (hfree : ∀ element ∈ before, element.isModal = true → element.id ≠ id) :
    Thinned before (after.filter (·.id != id)) := by
  refine ⟨List.filter_sublist.trans h.sublist, ?_⟩
  rw [← h.filter_eq, List.filter_filter]
  refine List.filter_congr fun element hmem ↦ ?_
  cases hmodal : element.isModal with
  | false => rfl
  | true =>
    have hne := hfree element (List.mem_filter.1 (h.mem_of_isModal hmem hmodal)).1 hmodal
    rw [Bool.true_and]
    simpa using hne

end Thinned

/-! ## Stacks above a base -/

/-- The elements of the base are open, with no modal elements above them. -/
def Rests (base stack : List OpenElement) : Prop :=
  ∃ above rest, stack = above ++ rest ∧ (∀ element ∈ above, element.isModal = false) ∧
    Thinned base rest

namespace Rests

variable {base stack : List OpenElement}

theorem of_thinned (h : Thinned base stack) : Rests base stack :=
  ⟨[], stack, rfl, fun _ hmem ↦ absurd hmem List.not_mem_nil, h⟩

theorem cons (h : Rests base stack) {element : OpenElement} (helement : element.isModal = false) :
    Rests base (element :: stack) := by
  obtain ⟨above, rest, rfl, habove, hrest⟩ := h
  exact ⟨element :: above, rest, rfl, List.forall_mem_cons.2 ⟨helement, habove⟩, hrest⟩

/-- Of a stack above a base ordinary elements may go. -/
theorem thinned {stack' : List OpenElement} (h : Rests base stack)
    (hthinned : Thinned stack stack') :
    Rests base stack' := by
  obtain ⟨above, rest, rfl, habove, hrest⟩ := h
  obtain ⟨hsublist, hfilter⟩ := hthinned
  obtain ⟨above', rest', rfl, habove', hrest'⟩ := List.sublist_append_iff.1 hsublist
  have hordinary : ∀ element ∈ above', element.isModal = false := fun element hmem ↦
    habove element (habove'.subset hmem)
  have hnone {elements : List OpenElement} (h : ∀ element ∈ elements, element.isModal = false) :
      elements.filter (·.isModal) = [] :=
    List.filter_eq_nil_iff.2 fun element hmem ↦ by simp [h element hmem]
  rw [List.filter_append, List.filter_append, hnone hordinary, hnone habove] at hfilter
  exact ⟨above', rest', rfl, hordinary, hrest.trans ⟨hrest', hfilter⟩⟩

theorem filter_id (h : Rests base stack) {id : Nat}
    (hfree : ∀ element ∈ base, element.isModal = true → element.id ≠ id) :
    Rests base (stack.filter (·.id != id)) := by
  obtain ⟨above, rest, rfl, habove, hrest⟩ := h
  exact ⟨above.filter (·.id != id), rest.filter (·.id != id), List.filter_append _ _,
    fun element hmem ↦ habove element (List.mem_filter.1 hmem).1, hrest.filter_id hfree⟩

theorem mem_of_isModal (h : Rests base stack) {element : OpenElement} (hmem : element ∈ stack)
    (hmodal : element.isModal = true) : element ∈ base := by
  obtain ⟨above, rest, rfl, habove, hrest⟩ := h
  rcases List.mem_append.1 hmem with hmem | hmem
  · exact absurd (hmodal.symm.trans (habove element hmem)) (by decide)
  · exact (List.mem_filter.1 (hrest.mem_of_isModal hmem hmodal)).1

theorem mem_stack (h : Rests base stack) {element : OpenElement}
    (hmem : element ∈ base) (hmodal : element.isModal = true) : element ∈ stack := by
  obtain ⟨above, rest, rfl, -, hrest⟩ := h
  have hfilter := hrest.filter_eq ▸ List.mem_filter.2 ⟨hmem, hmodal⟩
  exact List.mem_append_right _ (List.mem_filter.1 hfilter).1

end Rests

section Holder

variable {holder : OpenElement} {below stack : List OpenElement}

/-- The holder itself is still open. -/
theorem Thinned.exists_eq_holder (hholder : holder.isHtmlIn holderTags = true)
    {rest : List OpenElement} (h : Thinned (holder :: below) rest) :
    ∃ below', rest = holder :: below' := by
  obtain ⟨below', rfl, -⟩ := h.exists_eq_cons
    (OpenElement.isModal_of_isHtmlIn hholder (by decide))
  exact ⟨below', rfl⟩

/-- Closing stops at the holder if that is not closed. -/
theorem dropWhile_append_holder {closes : OpenElement → Bool} (hcloses : closes holder = false)
    (above rest : List OpenElement) :
    (above ++ holder :: rest).dropWhile closes = above.dropWhile closes ++ holder :: rest := by
  rw [List.dropWhile_append]
  split
  · next hempty =>
    rw [List.isEmpty_iff.1 hempty, List.nil_append, List.dropWhile_cons_of_neg (by simp [hcloses])]
  · rfl

theorem Rests.dropWhile (hholder : holder.isHtmlIn holderTags = true)
    (h : Rests (holder :: below) stack) {closes : OpenElement → Bool}
    (hcloses : closes holder = false) : Rests (holder :: below) (stack.dropWhile closes) := by
  obtain ⟨above, rest, rfl, habove, hrest⟩ := h
  obtain ⟨below', rfl⟩ := hrest.exists_eq_holder hholder
  exact ⟨above.dropWhile closes, holder :: below', dropWhile_append_holder hcloses above below',
    fun element hmem ↦ habove element ((List.dropWhile_sublist _).subset hmem), hrest⟩

/-- What is closed in a body lies above the holder. -/
theorem Rests.of_closes (hholder : holder.isHtmlIn holderTags = true) {stack' : List OpenElement}
    (h : Rests (holder :: below) stack) (hcloses : Closes stack stack') :
    Rests (holder :: below) stack' := by
  obtain ⟨above, rest, rfl, habove, hrest⟩ := h
  obtain ⟨below', rfl⟩ := hrest.exists_eq_holder hholder
  obtain ⟨dropped, hsplit, hdropped⟩ := hcloses
  rcases List.append_eq_append_iff.1 hsplit with ⟨more, rfl, hmore⟩ | ⟨kept, rfl, rfl⟩
  · cases more with
    | nil => exact ⟨[], holder :: below', hmore.symm, List.forall_mem_nil _, hrest⟩
    | cons first more =>
      obtain rfl := (List.cons.inj hmore).1
      have hnot := hdropped holder (by simp)
      exact absurd (hholder.symm.trans hnot) (by decide)
  · exact ⟨kept, holder :: below', rfl, (List.forall_mem_append.1 habove).2, hrest⟩

end Holder

/-! ## Framed builders -/

/-- A number that is given out, and that no modal element of the base has. -/
structure IsFree (base : List OpenElement) (next id : Nat) : Prop where
  lt : id < next
  ne : ∀ element ∈ base, element.isModal = true → element.id ≠ id

theorem IsFree.mono {base : List OpenElement} {next next' id : Nat} (h : IsFree base next id)
    (hle : next ≤ next') : IsFree base next' id :=
  ⟨Nat.lt_of_lt_of_le h.lt hle, h.ne⟩

/-- A marker, or an ordinary element with a free number. -/
def FormattingEntry.IsFree (base : List OpenElement) (next : Nat) : FormattingEntry → Prop
  | marker => True
  | element id tag => isModalName tag.name = false ∧ Html.IsFree base next id

theorem FormattingEntry.IsFree.mono {base : List OpenElement} {next next' : Nat}
    {entry : FormattingEntry} (h : entry.IsFree base next) (hle : next ≤ next') :
    entry.IsFree base next' := by
  cases entry with
  | marker => trivial
  | element id tag => exact ⟨h.1, h.2.mono hle⟩

/-- The spelling of a name is modal only if the name is. -/
theorem isModalName_tagName {name : String} (h : isModalName name = false)
    (vocabulary : Vocabulary) : isModalName (Foreign.tagName vocabulary name) = false := by
  cases vocabulary with
  | html => exact h
  | mathml => exact h
  | svg =>
    show isModalName ((Foreign.svgTags.find? fun known ↦
      Text.lowerAsciiString known == name).getD name) = false
    cases hfound : Foreign.svgTags.find? fun known ↦ Text.lowerAsciiString known == name with
    | none => exact h
    | some known =>
      have hknown : ∀ known ∈ Foreign.svgTags, isModalName known = false := by decide
      exact hknown known (List.mem_of_find?_eq_some hfound)

namespace Builder

/-- The formatting elements and the form have free numbers. -/
structure Free (base : List OpenElement) (b : Builder) : Prop where
  lt_nextId : ∀ element ∈ base, element.isModal = true → element.id < b.nextId
  formatting : ∀ entry ∈ b.formatting, entry.IsFree base b.nextId
  form : ∀ id, b.form = some id → IsFree base b.nextId id

/-- The holder and what it stands in are open, with ordinary elements above them. -/
structure Framed (holder : OpenElement) (below : List OpenElement) (b : Builder) : Prop where
  isHolder : holder.isHtmlIn holderTags = true
  rests : Rests (holder :: below) b.stack
  free : b.Free (holder :: below)

variable {base : List OpenElement} {b : Builder}

theorem exists_insertAt_eq_withTree (place : Place) (node : Dom) :
    ∃ tree, b.insertAt place node = { b with tree } := by
  cases place with
  | last id => exact ⟨_, rfl⟩
  | beforeTable table below =>
    unfold insertAt
    dsimp only
    split
    · exact ⟨_, rfl⟩
    · exact ⟨_, rfl⟩

theorem exists_insertElement_eq_withTree (opened : Bool) (name : ElementName)
    (attributes : List Attribute) :
    ∃ tree, b.insertElement opened name attributes = { b with
      tree
      nextId := b.nextId + 2
      stack := if opened then ⟨b.nextId, name⟩ :: b.stack else b.stack } := by
  unfold insertElement
  dsimp only
  obtain ⟨tree, hinsert⟩ := exists_insertAt_eq_withTree (b := b) (b.placeIn b.current)
    (.element b.nextId name attributes
      (if name = ⟨.html, "template"⟩ then [Dom.contents (contentsId b.nextId) []] else []))
  rw [hinsert]
  exact ⟨tree, rfl⟩

theorem exists_appendText_eq_withTree (text : List Char) :
    ∃ tree, b.appendText text = { b with tree } := by
  unfold appendText
  split
  · exact ⟨b.tree, rfl⟩
  · exact exists_insertAt_eq_withTree _ _

theorem stack_openHtml (tag : Tag) :
    (b.openHtml tag).stack = ⟨b.nextId, ⟨.html, tag.name⟩⟩ :: b.stack := by
  obtain ⟨tree, hinsert⟩ := exists_insertElement_eq_withTree (b := b) true ⟨.html, tag.name⟩
    (htmlAttributes tag)
  rw [openHtml, hinsert]
  rfl

theorem nextId_openHtml (tag : Tag) : (b.openHtml tag).nextId = b.nextId + 2 := by
  obtain ⟨tree, hinsert⟩ := exists_insertElement_eq_withTree (b := b) true ⟨.html, tag.name⟩
    (htmlAttributes tag)
  rw [openHtml, hinsert]

namespace Free

/-- Higher numbers and another tree change nothing. -/
theorem grow (h : b.Free base) (tree : Dom) {next : Nat} (hle : b.nextId ≤ next)
    (stack : List OpenElement) : Free base { b with tree, nextId := next, stack } where
  lt_nextId element hmem hmodal := Nat.lt_of_lt_of_le (h.lt_nextId element hmem hmodal) hle
  formatting entry hmem := (h.formatting entry hmem).mono hle
  form id hid := (h.form id hid).mono hle

/-- A number that is given out next is free. -/
theorem isFree_nextId (h : b.Free base) : IsFree base (b.nextId + 2) b.nextId :=
  ⟨Nat.lt_add_of_pos_right Nat.two_pos, fun element hmem hmodal ↦
    Nat.ne_of_lt (h.lt_nextId element hmem hmodal)⟩

theorem mono (h : b.Free base) {base' : List OpenElement}
    (hsub : ∀ element ∈ base', element.isModal = true → element ∈ base) : b.Free base' := by
  have hfree {next id : Nat} (hid : IsFree base next id) : IsFree base' next id :=
    ⟨hid.lt, fun element hmem hmodal ↦ hid.ne element (hsub element hmem hmodal) hmodal⟩
  refine ⟨fun element hmem hmodal ↦ h.lt_nextId element (hsub element hmem hmodal) hmodal,
    fun entry hmem ↦ ?_, fun id hid ↦ hfree (h.form id hid)⟩
  have hentry := h.formatting entry hmem
  cases entry with
  | marker => trivial
  | element id tag => exact ⟨hentry.1, hfree hentry.2⟩

/-- An element that is opened has a number of its own. -/
theorem openHtml (h : b.Free base) (tag : Tag) :
    (b.openHtml tag).Free (⟨b.nextId, ⟨.html, tag.name⟩⟩ :: base) := by
  obtain ⟨tree, hinsert⟩ := exists_insertElement_eq_withTree (b := b) true ⟨.html, tag.name⟩
    (htmlAttributes tag)
  have hfree {id : Nat} (hid : IsFree base b.nextId id) :
      IsFree (⟨b.nextId, ⟨.html, tag.name⟩⟩ :: base) (b.nextId + 2) id := by
    refine ⟨Nat.lt_add_right 2 hid.lt, List.forall_mem_cons.2 ⟨fun _ ↦ ?_, hid.ne⟩⟩
    exact Nat.ne_of_gt hid.lt
  rw [Builder.openHtml, hinsert]
  refine ⟨List.forall_mem_cons.2 ⟨fun _ ↦ Nat.lt_add_of_pos_right Nat.two_pos,
    fun element hmem hmodal ↦ Nat.lt_add_right 2 (h.lt_nextId element hmem hmodal)⟩,
    fun entry hmem ↦ ?_, fun id hid ↦ hfree (h.form id hid)⟩
  have hentry := h.formatting entry hmem
  cases entry with
  | marker => trivial
  | element id tag => exact ⟨hentry.1, hfree hentry.2⟩

end Free

namespace Framed

variable {holder : OpenElement} {below : List OpenElement}

theorem holder_isHtmlIn_eq_false (h : b.Framed holder below) {tags : List String}
    (htags : ∀ tag ∈ holderTags, tag ∉ tags) : holder.isHtmlIn tags = false :=
  OpenElement.isHtmlIn_eq_false_of_disjoint h.isHolder htags

theorem stack_ne_nil (h : b.Framed holder below) : b.stack ≠ [] := by
  obtain ⟨above, rest, hstack, -, hrest⟩ := h.rests
  obtain ⟨below', rfl⟩ := hrest.exists_eq_holder h.isHolder
  simp [hstack]

theorem withStack (h : b.Framed holder below) {stack : List OpenElement}
    (hstack : Rests (holder :: below) stack) : Framed holder below { b with stack } :=
  ⟨h.isHolder, hstack, { h.free with }⟩

theorem of_agrees (h : b.Framed holder below) {b' : Builder} (hagrees : b.Agrees b') :
    b'.Framed holder below := by
  obtain ⟨-, hnext, hstack, hformatting, hform⟩ := hagrees
  refine ⟨h.isHolder, hstack ▸ h.rests, ⟨?_, ?_, ?_⟩⟩
  · rw [hnext]
    exact h.free.lt_nextId
  · rw [hnext, hformatting]
    exact h.free.formatting
  · rw [hnext, hform]
    exact h.free.form

theorem withFormatting (h : b.Framed holder below) {formatting : List FormattingEntry}
    (hformatting : ∀ entry ∈ formatting, entry.IsFree (holder :: below) b.nextId) :
    Framed holder below { b with formatting } :=
  ⟨h.isHolder, h.rests, { h.free with formatting := hformatting }⟩

theorem withForm (h : b.Framed holder below) {form : Option Nat}
    (hform : ∀ id, form = some id → IsFree (holder :: below) b.nextId id) :
    Framed holder below { b with form } :=
  ⟨h.isHolder, h.rests, { h.free with form := hform }⟩

/-! ## Inserting -/

theorem appendText (h : b.Framed holder below) (text : List Char) :
    (b.appendText text).Framed holder below := by
  obtain ⟨tree, happend⟩ := exists_appendText_eq_withTree (b := b) text
  rw [happend]
  exact ⟨h.isHolder, h.rests, { h.free with }⟩

theorem insertElement (h : b.Framed holder below) (opened : Bool) (name : ElementName)
    (hname : opened = true → isModalName name.name = false) (attributes : List Attribute) :
    (b.insertElement opened name attributes).Framed holder below := by
  obtain ⟨tree, hinsert⟩ := exists_insertElement_eq_withTree (b := b) opened name attributes
  rw [hinsert]
  refine ⟨h.isHolder, ?_, h.free.grow tree (Nat.le_add_right _ 2) _⟩
  cases opened with
  | false => exact h.rests
  | true => exact h.rests.cons (hname rfl)

theorem openHtml (h : b.Framed holder below) {tag : Tag} (htag : isModalName tag.name = false) :
    (b.openHtml tag).Framed holder below :=
  h.insertElement true ⟨.html, tag.name⟩ (fun _ ↦ htag) _

theorem addHtml (h : b.Framed holder below) (tag : Tag) : (b.addHtml tag).Framed holder below :=
  h.insertElement false ⟨.html, tag.name⟩ nofun _

theorem openForeign (h : b.Framed holder below) (vocabulary : Vocabulary) {tag : Tag}
    (htag : isModalName tag.name = false) : (b.openForeign vocabulary tag).Framed holder below :=
  h.insertElement _ ⟨vocabulary, _⟩ (fun _ ↦ isModalName_tagName htag vocabulary) _

/-! ## Closing -/

theorem close (h : b.Framed holder below) {stack : List OpenElement}
    (hcloses : Closes b.stack stack) : Framed holder below { b with stack } :=
  h.withStack (h.rests.of_closes h.isHolder hcloses)

theorem popWhile (h : b.Framed holder below) {closes : OpenElement → Bool}
    (hcloses : closes holder = false) : (b.popWhile closes).Framed holder below :=
  h.withStack (h.rests.dropWhile h.isHolder hcloses)

theorem closeImpliedExcept (h : b.Framed holder below) (kept : List String) :
    (b.closeImpliedExcept kept).Framed holder below :=
  h.popWhile (by rw [h.holder_isHtmlIn_eq_false (by decide), Bool.false_and])

theorem closeImplied (h : b.Framed holder below) : b.closeImplied.Framed holder below :=
  h.closeImpliedExcept []

theorem removeOpen (h : b.Framed holder below) {id : Nat}
    (hne : ∀ element ∈ holder :: below, element.isModal = true → element.id ≠ id) :
    (b.removeOpen id).Framed holder below :=
  h.withStack (h.rests.filter_id hne)

/-- The innermost element is closed if it is not one that holds content of any kind. -/
theorem pop (h : b.Framed holder below) {name : String} (hname : name ∉ holderTags)
    (hcurrent : b.currentIs name = true) : b.pop.Framed holder below := by
  have hcloses : Closes b.stack b.stack.tail :=
    closes_tail (·.isHtml name) hcurrent fun _ helement ↦
      OpenElement.isHtmlIn_eq_false_of_isHtml helement hname
  exact h.close hcloses

theorem closeOrdinary (h : b.Framed holder below) {name : String} (hname : name ∉ holderTags) :
    (b.closeOrdinary name).Framed holder below := by
  unfold Builder.closeOrdinary
  dsimp only
  split
  · exact h
  · next depth hfound =>
    refine (h.closeImpliedExcept [name]).close (closes_of_closeOrdinary_search hname ?_)
    refine closeOrdinary_search_dropWhile (fun element helement ↦ ?_) hfound
    rw [← OpenElement.isHtml_eq, helement, Bool.not_true, Bool.and_false]

/-! ## Formatting elements -/

theorem removeFormatting (h : b.Framed holder below) (id : Nat) :
    (b.removeFormatting id).Framed holder below :=
  h.withFormatting fun entry hmem ↦ h.free.formatting entry (List.mem_filter.1 hmem).1

theorem pushMarker (h : b.Framed holder below) : b.pushMarker.Framed holder below :=
  h.withFormatting (List.forall_mem_cons.2 ⟨trivial, h.free.formatting⟩)

theorem clearToMarker (h : b.Framed holder below) : b.clearToMarker.Framed holder below :=
  h.withFormatting fun entry hmem ↦ h.free.formatting entry
    (((List.tail_sublist _).trans (List.dropWhile_sublist _)).subset hmem)

theorem reopen {entries done : List FormattingEntry} (h : b.Framed holder below)
    (hdone : ∀ entry ∈ done, entry.IsFree (holder :: below) b.nextId)
    (hentries : ∀ entry ∈ entries, entry.IsFree (holder :: below) b.nextId) :
    (b.reopen done entries).Framed holder below := by
  induction entries generalizing b done with
  | nil => exact h.withFormatting hdone
  | cons entry rest ih =>
    obtain ⟨hentry, hrest⟩ := List.forall_mem_cons.1 hentries
    cases entry with
    | marker => exact ih h (List.forall_mem_cons.2 ⟨trivial, hdone⟩) hrest
    | element id tag =>
      have hopen := h.openHtml hentry.1
      have hnext : (b.openHtml tag).nextId = b.nextId + 2 := nextId_openHtml tag
      have hle : b.nextId ≤ (b.openHtml tag).nextId := hnext ▸ Nat.le_add_right _ 2
      refine ih hopen (List.forall_mem_cons.2 ⟨⟨hentry.1, ?_⟩, fun other hmem ↦
        (hdone other hmem).mono hle⟩) fun other hmem ↦ (hrest other hmem).mono hle
      rw [hnext]
      exact h.free.isFree_nextId

theorem reopenFormatting (h : b.Framed holder below) : b.reopenFormatting.Framed holder below := by
  refine h.reopen (fun entry hmem ↦ ?_) fun entry hmem ↦ ?_
  · exact h.free.formatting entry (List.mem_of_mem_drop hmem)
  · rw [List.mem_reverse] at hmem
    exact h.free.formatting entry ((List.takeWhile_sublist _).subset hmem)

theorem openFormatting (h : b.Framed holder below) {tag : Tag}
    (htag : isModalName tag.name = false) : (b.openFormatting tag).Framed holder below := by
  have hopen {b' : Builder} (h' : b'.Framed holder below) :
      Framed holder below { b'.openHtml tag with
        formatting := .element b'.nextId tag :: (b'.openHtml tag).formatting } := by
    refine (h'.openHtml htag).withFormatting (List.forall_mem_cons.2
      ⟨⟨htag, ?_⟩, (h'.openHtml htag).free.formatting⟩)
    rw [nextId_openHtml]
    exact h'.free.isFree_nextId
  unfold Builder.openFormatting
  apply hopen
  split
  · split
    · exact h.removeFormatting _
    · exact h
  · exact h

end Framed

end Builder

end NotebookTree.Html
