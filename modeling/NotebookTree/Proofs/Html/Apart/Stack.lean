import NotebookTree.Proofs.Html.Families
import NotebookTree.Proofs.Html.Frame.Basic
import NotebookTree.Proofs.Siblings

/-!
# Families and open elements

Texts come together only where an element is taken out from between them, and only an element that
is open is ever taken out. `Fits` says what the open elements ask of a family, so that neither this
nor a node that is added brings texts together: no open element has a text right behind it, other
than tables, their parts and templates, and what is open inside an element is not among its children
yet, so that a text added there comes behind none of it. Text fostered before a table keeps this up
because nothing that was open when the table was opened stands beside it, and because the parts of a
table stand directly in one another: `Braced`.
-/

namespace NotebookTree.Html

open Dom (Head)

variable {stack above below : List OpenElement} {element : OpenElement} {next n : Nat}

/-! ## Open elements -/

namespace OpenElement

/-- Is it a section or a row of a table? -/
def isPart (element : OpenElement) : Bool := element.isHtmlIn partTags

/-- The number of the family that is added to inside an element. -/
def inner (element : OpenElement) : Nat :=
  if element.isHtml "template" then Builder.contentsId element.id else element.id

/-- The families of an element are its own and, for a template, that of its contents. -/
def Owns (element : OpenElement) (n : Nat) : Prop := n = element.id ∨ n = element.inner

theorem owns_id (element : OpenElement) : element.Owns element.id := .inl rfl

theorem owns_inner (element : OpenElement) : element.Owns element.inner := .inr rfl

theorem Owns.le (h : element.Owns n) : element.id ≤ n := by
  rcases h with rfl | rfl
  · exact Nat.le_refl _
  · rw [inner]
    split
    · exact Nat.le_succ _
    · exact Nat.le_refl _

theorem Owns.le_succ (h : element.Owns n) : n ≤ element.id + 1 := by
  rcases h with rfl | rfl
  · exact Nat.le_succ _
  · rw [inner]
    split
    · exact Nat.le_refl _
    · exact Nat.le_succ _

theorem isFrame_eq (element : OpenElement) :
    element.isFrame = (element.isHtmlIn ["html", "table", "template"] || element.isPart) := by
  simp only [isFrame, isPart, isHtmlIn, frameTags, List.mem_append]
  rw [Bool.decide_or, Bool.and_or_distrib_left]

theorem isFrame_of_isHtml {tag : String} (h : element.isHtml tag = true) (htag : tag ∈ frameTags) :
    element.isFrame = true := by
  rw [isHtml, Bool.and_eq_true, beq_iff_eq (b := tag)] at h
  rw [isFrame, isHtmlIn, h.1, h.2, decide_eq_true htag]
  rfl

theorem isHtml_eq_false {tag : String} (h : element.isFrame = false) (htag : tag ∈ frameTags) :
    element.isHtml tag = false := by
  by_contra hhtml
  cases h.symm.trans (isFrame_of_isHtml (by simpa using hhtml) htag)

theorem isFrame_of_isPart (h : element.isPart = true) : element.isFrame = true := by
  rw [isFrame_eq, h, Bool.or_true]

/-- The wrapper is the only other frame. -/
theorem isHtml_html_of_isFrame (hframe : element.isFrame = true)
    (htable : ¬element.isHtml "table" = true) (htemplate : ¬element.isHtml "template" = true)
    (hpart : ¬element.isPart = true) : element.isHtml "html" = true := by
  rw [isFrame_eq, Bool.or_eq_true, or_iff_left hpart, isHtmlIn, Bool.and_eq_true,
    decide_eq_true_eq] at hframe
  obtain ⟨hvocabulary, hname⟩ := hframe
  simp only [isHtml, hvocabulary, Bool.true_and, beq_iff_eq] at htable htemplate ⊢
  simpa [htable, htemplate] using hname

theorem isModal_of_isFrame (h : element.isFrame = true) : element.isModal = true :=
  isModal_of_isHtmlIn h (by decide)

end OpenElement

/-! ## Parts of tables -/

/-- Parts of tables stand directly on tables, other parts, templates or the wrapper. -/
def Braced : List OpenElement → Prop
  | [] => True
  | element :: below => (element.isPart = true → Footed below) ∧ Braced below

namespace Braced

theorem append (h : Braced below) (habove : ∀ element ∈ above, element.isFrame = false) :
    Braced (above ++ below) := by
  induction above with
  | nil => exact h
  | cons element rest ih =>
    obtain ⟨helement, hrest⟩ := List.forall_mem_cons.1 habove
    refine ⟨fun hpart ↦ ?_, ih hrest⟩
    exact absurd (OpenElement.isFrame_of_isPart hpart) (by simp [helement])

theorem of_append (h : Braced (above ++ below)) : Braced below := by
  induction above with
  | nil => exact h
  | cons element rest ih => exact ih h.2

/-- Above an element that is no frame stand no parts without a table or a template between. -/
theorem isFrame_eq_false (h : Braced (above ++ element :: below))
    (helement : element.isFrame = false)
    (habove : ∀ other ∈ above, other.isHtmlIn ["html", "table", "template"] = false) :
    ∀ other ∈ above, other.isFrame = false := by
  induction above with
  | nil => exact List.forall_mem_nil _
  | cons first rest ih =>
    obtain ⟨hfirst, hothers⟩ := List.forall_mem_cons.1 habove
    have hrest := ih h.2 hothers
    refine List.forall_mem_cons.2 ⟨?_, hrest⟩
    by_contra hframe
    have hpart : first.isPart = true := by
      simpa [OpenElement.isFrame_eq, hfirst] using hframe
    have hfooted := h.1 hpart
    cases rest with
    | nil => exact absurd (hfooted element rfl) (by simp [helement])
    | cons second others =>
      exact absurd (hfooted second rfl) (by simp [hrest second List.mem_cons_self])

/-- A number that no frame has may be taken out. -/
theorem filter_id (h : Braced stack) {id : Nat}
    (hne : ∀ element ∈ stack, element.isFrame = true → element.id ≠ id) :
    Braced (stack.filter (·.id != id)) := by
  induction stack with
  | nil => exact h
  | cons element rest ih =>
    have hothers := (List.forall_mem_cons.1 hne).2
    rw [List.filter_cons]
    split
    · refine ⟨fun hpart ↦ ?_, ih h.2 hothers⟩
      have hfooted := h.1 hpart
      cases rest with
      | nil => exact hfooted
      | cons second others =>
        have hsecond : second.isFrame = true := hfooted second rfl
        have hkept := hothers second List.mem_cons_self hsecond
        rw [List.filter_cons_of_pos (by simpa using hkept)]
        exact fun found hfound ↦ by
          cases hfound
          exact hsecond
    · exact ih h.2 hothers

end Braced

/-! ## Numbers -/

theorem mem_insert_iff {α : Type*} {newer older : List α} {a b : α} :
    b ∈ newer ++ a :: older ↔ b = a ∨ b ∈ newer ++ older := by
  simp only [List.mem_append, List.mem_cons]
  tauto

/-- An element in the midst of a list with a relation between all pairs. -/
theorem pairwise_insert {α : Type*} {related : α → α → Prop} {newer older : List α} {a : α}
    (h : (newer ++ older).Pairwise related) (hnewer : ∀ b ∈ newer, related b a)
    (holder : ∀ b ∈ older, related a b) : (newer ++ a :: older).Pairwise related := by
  obtain ⟨hfirst, hlast, hcross⟩ := List.pairwise_append.1 h
  refine List.pairwise_append.2 ⟨hfirst, List.pairwise_cons.2 ⟨holder, hlast⟩, ?_⟩
  exact fun b hb ↦ List.forall_mem_cons.2 ⟨hnewer b hb, hcross b hb⟩

/-- Open elements have families of their own with numbers that are given out, the wrapper is the
lowest of them, and parts of tables stand where they may. -/
structure Stacked (stack : List OpenElement) (next : Nat) : Prop where
  pos : 0 < next
  lt : ∀ element ∈ stack, ∀ n, element.Owns n → n < next
  distinct : stack.Pairwise fun x y ↦ ∀ n, x.Owns n → ¬y.Owns n
  wrapper : ∀ element ∈ stack, element.id = 0 → element.isHtml "html" = true
  lowest : stack.Pairwise fun x _ ↦ x.isHtml "html" = false
  braced : Braced stack

namespace Stacked

theorem append_right (h : Stacked (above ++ below) next) : Stacked below next where
  pos := h.pos
  lt element hmem := h.lt element (List.mem_append_right _ hmem)
  distinct := (List.pairwise_append.1 h.distinct).2.1
  wrapper element hmem := h.wrapper element (List.mem_append_right _ hmem)
  lowest := (List.pairwise_append.1 h.lowest).2.1
  braced := h.braced.of_append

theorem tail (h : Stacked (element :: below) next) : Stacked below next := by
  have happend : Stacked ([element] ++ below) next := h
  exact happend.append_right

/-- Elements are closed, and what stays is braced. -/
theorem sublist (h : Stacked stack next) {stack' : List OpenElement} (hsub : stack'.Sublist stack)
    (hbraced : Braced stack') : Stacked stack' next where
  pos := h.pos
  lt element hmem := h.lt element (hsub.subset hmem)
  distinct := h.distinct.sublist hsub
  wrapper element hmem := h.wrapper element (hsub.subset hmem)
  lowest := h.lowest.sublist hsub
  braced := hbraced

/-- A number that is not given out belongs to no open element. -/
theorem not_owns (h : Stacked stack next) (hn : next ≤ n) : ∀ element ∈ stack, ¬element.Owns n :=
  fun element hmem howns ↦ Nat.not_le_of_lt (h.lt element hmem n howns) hn

/-- An element with a new number is opened. -/
theorem insert (h : Stacked (above ++ below) next) (hid : next ≤ element.id)
    {next' : Nat} (hnext : element.id + 2 ≤ next') (habove : ∀ x ∈ above, x.isHtml "html" = false)
    (helement : element.isHtml "html" = false) (hbraced : Braced (above ++ element :: below)) :
    Stacked (above ++ element :: below) next' := by
  have hold (x : OpenElement) (hmem : x ∈ above ++ below) (n : Nat) (howns : x.Owns n) :
      ¬element.Owns n := fun hnew ↦
    h.not_owns (Nat.le_trans hid hnew.le) x hmem howns
  have hpos := h.pos
  exact {
    pos := by omega
    lt x hx n howns := by
      rcases mem_insert_iff.1 hx with rfl | hx
      · have hle := howns.le_succ
        omega
      · have hlt := h.lt x hx n howns
        omega
    distinct := pairwise_insert h.distinct (fun x hx ↦ hold x (List.mem_append_left _ hx))
      fun x hx n hnew howns ↦ hold x (List.mem_append_right _ hx) n howns hnew
    wrapper x hx hzero := by
      rcases mem_insert_iff.1 hx with rfl | hx
      · omega
      · exact h.wrapper x hx hzero
    lowest := pairwise_insert h.lowest habove fun _ _ ↦ helement
    braced := hbraced }

/-- An element that is no frame is opened above others, and below some that are no frames. -/
theorem insert_ordinary (h : Stacked (above ++ below) next) (hid : next ≤ element.id) {next' : Nat}
    (hnext : element.id + 2 ≤ next') (habove : ∀ x ∈ above, x.isFrame = false)
    (hframe : element.isFrame = false) : Stacked (above ++ element :: below) next' := by
  refine h.insert hid hnext (fun x hx ↦ OpenElement.isHtml_eq_false (habove x hx) (by decide))
    (OpenElement.isHtml_eq_false hframe (by decide)) ?_
  have hbraced : Braced ((above ++ [element]) ++ below) :=
    h.append_right.braced.append
      (List.forall_mem_append.2 ⟨habove, List.forall_mem_singleton.2 hframe⟩)
  rwa [List.append_assoc] at hbraced

/-- Of the elements above others none has a family that one of these has. -/
theorem not_owns_of_mem_append (h : Stacked (above ++ below) next) {x y : OpenElement}
    (hx : x ∈ above) (hy : y ∈ below) (hn : y.Owns n) : ¬x.Owns n := fun howns ↦
  (List.pairwise_append.1 h.distinct).2.2 x hx y hy n howns hn

theorem id_ne_of_mem_append (h : Stacked (above ++ below) next) {x y : OpenElement}
    (hx : x ∈ above) (hy : y ∈ below) : x.id ≠ y.id := fun heq ↦
  h.not_owns_of_mem_append hx hy y.owns_id (heq ▸ x.owns_id)

theorem eq_of_id_eq (h : Stacked stack next) {x y : OpenElement} (hx : x ∈ stack) (hy : y ∈ stack)
    (heq : x.id = y.id) : x = y := by
  by_contra hne
  have : Std.Symm fun x y : OpenElement ↦ ∀ n, x.Owns n → ¬y.Owns n :=
    ⟨fun _ _ hdistinct n hy hx ↦ hdistinct n hx hy⟩
  exact h.distinct.forall hx hy hne x.id x.owns_id (heq ▸ y.owns_id)

theorem id_ne_of_mem (h : Stacked (above ++ element :: below) next) :
    ∀ x ∈ above ++ below, x.id ≠ element.id := by
  intro x hx heq
  rcases List.mem_append.1 hx with hx | hx
  · exact h.id_ne_of_mem_append hx List.mem_cons_self heq
  · have hbelow : Stacked ([element] ++ below) next := h.append_right
    exact hbelow.id_ne_of_mem_append List.mem_cons_self hx heq.symm

/-- Only the wrapper has the number of the root. -/
theorem not_owns_zero (h : Stacked stack next) (hmem : element ∈ stack)
    (hframe : element.isFrame = false) : ¬element.Owns 0 := by
  intro howns
  have hhtml := h.wrapper element hmem (Nat.le_zero.1 howns.le)
  exact absurd (OpenElement.isFrame_of_isHtml hhtml (by decide)) (by simp [hframe])

end Stacked

/-! ## Families -/

/-- Right behind a text there is no text, and no open element but frames. -/
def Parted (stack : List OpenElement) (newer older : Head) : Prop :=
  newer = .text →
    older ≠ .text ∧ ∀ element ∈ stack, element.isFrame = false → older ≠ .element element.id

/-- What the open elements ask of the family with a number. -/
structure Fits (stack : List OpenElement) (next n : Nat) (heads : List Head) : Prop where
  lt : n < next
  lt_of_mem : ∀ id, .element id ∈ heads → id < next
  parted : heads.IsChain (Parted stack)
  /-- A table does not stand beside an element that was open when it was opened. -/
  alone : stack.Pairwise fun table element ↦ table.isHtml "table" = true →
    element.isFrame = false → .element table.id ∈ heads → .element element.id ∉ heads
  /-- An open element is not inside itself. -/
  outside_self : ∀ element ∈ stack, element.Owns n → .element element.id ∉ heads
  /-- An open element is not inside one that is opened after it. -/
  outside : stack.Pairwise fun x element ↦ x.Owns n → .element element.id ∉ heads

/-- None of the open elements but frames is seen. -/
def Unseen (stack : List OpenElement) (heads : List Head) : Prop :=
  ∀ element ∈ stack, element.isFrame = false → .element element.id ∉ heads

namespace Fits

variable {heads before after : List Head}

theorem apart (h : Fits stack next n heads) : Apart Head.isText heads := by
  refine h.parted.imp fun newer older hparted ⟨hnewer, holder⟩ ↦ ?_
  cases newer with
  | text =>
    cases older with
    | text => exact (hparted rfl).1 rfl
    | _ => cases holder
  | _ => cases hnewer

theorem sublist (h : Fits stack next n heads) {stack' : List OpenElement}
    (hsub : stack'.Sublist stack) : Fits stack' next n heads where
  lt := h.lt
  lt_of_mem := h.lt_of_mem
  parted := h.parted.imp fun _ _ hparted htext ↦
    ⟨(hparted htext).1, fun element hmem ↦ (hparted htext).2 element (hsub.subset hmem)⟩
  alone := h.alone.sublist hsub
  outside_self element hmem := h.outside_self element (hsub.subset hmem)
  outside := h.outside.sublist hsub

/-- Opening a new element asks nothing of the families there are. -/
theorem insert (h : Fits (above ++ below) next n heads) (hid : next ≤ element.id) {next' : Nat}
    (hnext : next ≤ next') : Fits (above ++ element :: below) next' n heads := by
  have hnew : .element element.id ∉ heads := fun hmem ↦
    Nat.not_le_of_lt (h.lt_of_mem _ hmem) hid
  have howns : ¬element.Owns n := fun howns ↦
    Nat.not_le_of_lt h.lt (Nat.le_trans hid howns.le)
  exact {
    lt := Nat.lt_of_lt_of_le h.lt hnext
    lt_of_mem id hid := Nat.lt_of_lt_of_le (h.lt_of_mem id hid) hnext
    parted := by
      refine List.IsChain.imp_of_mem_imp (fun newer older _ holder hparted htext ↦
        ⟨(hparted htext).1, fun x hx hframe ↦ ?_⟩) h.parted
      rcases mem_insert_iff.1 hx with rfl | hx
      · rintro rfl
        exact hnew holder
      · exact (hparted htext).2 x hx hframe
    alone := pairwise_insert h.alone (fun _ _ _ _ _ ↦ hnew) fun _ _ _ _ hmem ↦ absurd hmem hnew
    outside_self x hx hxn := by
      rcases mem_insert_iff.1 hx with rfl | hx
      · exact hnew
      · exact h.outside_self x hx hxn
    outside := pairwise_insert h.outside (fun _ _ _ ↦ hnew) fun _ _ hxn ↦ absurd hxn howns }

/-- An element that is taken out leaves no text beside a text. -/
theorem loses {newer older : List Head} {id : Nat}
    (h : Fits stack next n (newer ++ .element id :: older))
    (hopen : ∃ element ∈ stack, element.id = id ∧ element.isFrame = false) :
    Fits stack next n (newer ++ older) := by
  have hsub : ∀ {other : Head}, other ∈ newer ++ older → other ∈ newer ++ .element id :: older :=
    fun hmem ↦ ((List.Sublist.refl newer).append (List.sublist_cons_self _ _)).subset hmem
  obtain ⟨element, hmem, rfl, hframe⟩ := hopen
  obtain ⟨hnewer, holder, hlink⟩ := List.isChain_append.1 h.parted
  exact {
    lt := h.lt
    lt_of_mem id hid := h.lt_of_mem id (hsub hid)
    parted := by
      refine List.isChain_append.2 ⟨hnewer, holder.tail, fun last hlast next hnext htext ↦ ?_⟩
      exact absurd rfl ((hlink last hlast _ rfl htext).2 element hmem hframe)
    alone := h.alone.imp fun halone htable hother hin hbeside ↦
      halone htable hother (hsub hin) (hsub hbeside)
    outside_self x hx howns hin := h.outside_self x hx howns (hsub hin)
    outside := h.outside.imp fun houtside howns hin ↦ houtside howns (hsub hin) }

/-- A text may be added in front of what is not seen of the open elements. -/
theorem parted_push {new : Head} (h : before.IsChain (Parted stack))
    (hnew : new = .text → Unseen stack before) : (new.push before).IsChain (Parted stack) := by
  unfold Head.push
  split
  · exact h
  · next hnot =>
    refine List.isChain_cons.2 ⟨fun next hnext htext ↦ ⟨?_, ?_⟩, h⟩
    · rintro rfl
      cases before with
      | nil => cases hnext
      | cons first rest =>
        cases hnext
        exact hnot _ htext rfl
    · rintro element hmem hframe rfl
      exact hnew htext element hmem hframe (List.mem_of_mem_head? hnext)

theorem parted_gains {new : Head} (h : before.IsChain (Parted stack))
    (hnew : new = .text → Unseen stack before) (hgains : new.Gains before after) :
    after.IsChain (Parted stack) := by
  cases hgains with
  | newest => exact parted_push h hnew
  | before newer id older =>
    obtain ⟨hnewer, holder, hlink⟩ := List.isChain_append.1 h
    refine List.isChain_append.2 ⟨hnewer, List.isChain_cons.2 ⟨nofun, ?_⟩, hlink⟩
    refine parted_push holder.tail fun htext x hx hframe hin ↦ hnew htext x hx hframe ?_
    exact List.mem_append_right _ (List.mem_cons_of_mem _ hin)

/-- A text or a comment is added where none of the open elements is seen. -/
theorem gains (h : Fits stack next n before) {new : Head} (hnew : ∀ id, new ≠ .element id)
    (hunseen : Unseen stack before) (hgains : new.Gains before after) :
    Fits stack next n after := by
  have hold {id : Nat} (hmem : .element id ∈ after) : .element id ∈ before :=
    (hgains.mem_iff.1 hmem).resolve_left fun heq ↦ hnew id heq.symm
  exact {
    lt := h.lt
    lt_of_mem id hid := h.lt_of_mem id (hold hid)
    parted := parted_gains h.parted (fun _ ↦ hunseen) hgains
    alone := h.alone.imp fun halone htable hother hin hbeside ↦
      halone htable hother (hold hin) (hold hbeside)
    outside_self x hx howns hin := h.outside_self x hx howns (hold hin)
    outside := h.outside.imp fun houtside howns hin ↦ houtside howns (hold hin) }

/-- An element that is open is added to a family of an element below it. -/
theorem gains_element (h : Fits (above ++ below) next n before)
    (hstacked : Stacked (above ++ below) next) (helement : element ∈ above)
    (htables : above.Pairwise fun table _ ↦ table.isHtml "table" = false)
    (hunseen : element.isHtml "table" = true → Unseen below before)
    (howns : ∀ x ∈ above, ¬x.Owns n) (hgains : (Head.element element.id).Gains before after) :
    Fits (above ++ below) next n after := by
  have hmem {id : Nat} (hin : .element id ∈ after) : id = element.id ∨ .element id ∈ before := by
    rcases hgains.mem_iff.1 hin with heq | hin
    · exact .inl (Head.element.inj heq)
    · exact .inr hin
  have hbelow {x : OpenElement} (hx : x ∈ below) (hin : .element x.id ∈ after) :
      .element x.id ∈ before :=
    (hmem hin).resolve_left (hstacked.id_ne_of_mem_append helement hx).symm
  have hselves := h.outside_self
  exact {
    lt := h.lt
    lt_of_mem := by
      intro id hin
      rcases hmem hin with rfl | hin
      · exact hstacked.lt element (List.mem_append_left _ helement) _ element.owns_id
      · exact h.lt_of_mem id hin
    parted := parted_gains h.parted (fun htext ↦ by cases htext) hgains
    alone := by
      obtain ⟨-, hlast, hcross⟩ := List.pairwise_append.1 h.alone
      refine List.pairwise_append.2 ⟨htables.imp fun hnot htable ↦ absurd htable (by simp [hnot]),
        hlast.imp_of_mem fun hx hy halone htable hother hin hbeside ↦
          halone htable hother (hbelow hx hin) (hbelow hy hbeside), ?_⟩
      intro table htable x hx htag hother hin hbeside
      rcases hmem hin with heq | hin
      · have hsame : table = element := hstacked.eq_of_id_eq (List.mem_append_left _ htable)
          (List.mem_append_left _ helement) heq
        exact hunseen (hsame ▸ htag) x hx hother (hbelow hx hbeside)
      · exact hcross table htable x hx htag hother hin (hbelow hx hbeside)
    outside_self := by
      intro x hx hn hin
      rcases List.mem_append.1 hx with hx | hx
      · exact howns x hx hn
      · exact hselves x (List.mem_append_right _ hx) hn (hbelow hx hin)
    outside := by
      obtain ⟨-, hlast, hcross⟩ := List.pairwise_append.1 h.outside
      refine List.pairwise_append.2 ⟨?_, ?_, ?_⟩
      · exact List.pairwise_of_forall_mem_list fun x hx _ _ hn ↦ absurd hn (howns x hx)
      · exact hlast.imp_of_mem fun _ hy houtside hn hin ↦ houtside hn (hbelow hy hin)
      · exact fun x hx _ _ hn ↦ absurd hn (howns x hx) }

/-! ### New families -/

/-- A family without elements. -/
theorem of_forall_ne (hlt : n < next) (hparted : heads.IsChain (Parted stack))
    (hnone : ∀ id, .element id ∉ heads) : Fits stack next n heads where
  lt := hlt
  lt_of_mem id hid := absurd hid (hnone id)
  parted := hparted
  alone := List.pairwise_of_forall fun _ _ _ _ hin ↦ absurd hin (hnone _)
  outside_self x _ _ := hnone x.id
  outside := List.pairwise_of_forall fun _ x _ ↦ hnone x.id

/-- The family of an open element with one that is open above it. -/
theorem singleton (h : Stacked (above ++ element :: below) next) {child : OpenElement}
    (hchild : child ∈ above) (hframe : child.isFrame = false) :
    Fits (above ++ element :: below) next element.id [.element child.id] := by
  have hself : element ∈ above ++ element :: below := by simp
  have hin {x : OpenElement} (hx : x ∈ above ++ element :: below)
      (hmem : Head.element x.id ∈ [Head.element child.id]) : x = child := by
    rw [List.mem_singleton, Head.element.injEq] at hmem
    exact h.eq_of_id_eq hx (List.mem_append_left _ hchild) hmem
  have hnot {x : OpenElement} (hx : x ∈ above) : ¬x.Owns element.id :=
    h.not_owns_of_mem_append hx List.mem_cons_self element.owns_id
  have hbelow {x : OpenElement} (hx : x ∈ element :: below) :
      Head.element x.id ∉ [Head.element child.id] := by
    rw [List.mem_singleton, Head.element.injEq]
    exact (h.id_ne_of_mem_append hchild hx).symm
  exact {
    lt := h.lt element hself _ element.owns_id
    lt_of_mem := by
      intro id hmem
      rw [List.mem_singleton, Head.element.injEq] at hmem
      rw [hmem]
      exact h.lt child (List.mem_append_left _ hchild) _ child.owns_id
    parted := List.IsChain.singleton _
    alone := by
      refine List.Pairwise.imp_of_mem (fun htable _ _ htag _ hmem ↦ ?_) h.lowest
      have hcontra := OpenElement.isFrame_of_isHtml htag (by decide)
      rw [hin htable hmem, hframe] at hcontra
      cases hcontra
    outside_self := by
      intro x hx howns hmem
      rw [hin hx hmem] at howns
      exact hnot hchild howns
    outside := by
      refine List.pairwise_append.2 ⟨?_, ?_, fun x hx _ _ howns ↦ absurd howns (hnot hx)⟩
      · exact List.pairwise_of_forall_mem_list fun x hx _ _ howns ↦ absurd howns (hnot hx)
      · refine List.pairwise_of_forall_mem_list fun _ _ x hx _ ↦ hbelow hx }

/-- The children of an open element are handed over to a new one that is opened inside it. -/
theorem handed (h : Fits (above ++ element :: below) next element.id heads) {new : OpenElement}
    {next' : Nat} (hid : next ≤ new.id) (hnext : next ≤ next')
    (hstacked : Stacked (above ++ new :: element :: below) next') :
    Fits (above ++ new :: element :: below) next' new.id heads := by
  have hnew : .element new.id ∉ heads := fun hmem ↦
    Nat.not_le_of_lt (h.lt_of_mem _ hmem) hid
  obtain ⟨-, hlast, -⟩ := List.pairwise_append.1 h.outside
  have hbelow : ∀ x ∈ new :: element :: below, .element x.id ∉ heads := by
    refine List.forall_mem_cons.2 ⟨hnew, List.forall_mem_cons.2 ⟨?_, fun x hx ↦ ?_⟩⟩
    · exact h.outside_self element (by simp) element.owns_id
    · exact (List.pairwise_cons.1 hlast).1 x hx element.owns_id
  have hnot {x : OpenElement} (hx : x ∈ above) : ¬x.Owns new.id :=
    hstacked.not_owns_of_mem_append hx List.mem_cons_self new.owns_id
  have hopened := h.insert hid hnext
  exact { hopened with
    lt := hstacked.lt new (by simp) _ new.owns_id
    outside_self := by
      intro x hx howns
      rcases List.mem_append.1 hx with hx | hx
      · exact absurd howns (hnot hx)
      · exact hbelow x hx
    outside := by
      refine List.pairwise_append.2 ⟨?_, ?_, fun x hx _ _ howns ↦ absurd howns (hnot hx)⟩
      · exact List.pairwise_of_forall_mem_list fun x hx _ _ howns ↦ absurd howns (hnot hx)
      · exact List.pairwise_of_forall_mem_list fun _ _ x hx _ ↦ hbelow x hx }

end Fits

/-! ## Places -/

namespace Builder

/-- The families that may gain a node at a place. -/
def Place.Meets : Place → Nat → List Head → Prop
  | last id, n, _ => n = id
  | beforeTable table below, n, heads => .element table ∈ heads ∨ n = below

/-- A place of a node that belongs into the innermost of the elements. -/
inductive Place.Suits (stack : List OpenElement) : Place → Prop where
  | inside : Suits stack (.inside (stack.headD ⟨0, ⟨.html, "html"⟩⟩))
  | foster : Footed stack → Suits stack (fosterPlace stack)

theorem fosterPlace_append (h : ∀ x ∈ above, x.isFrame = false)
    (below : List OpenElement) : fosterPlace (above ++ below) = fosterPlace below := by
  induction above with
  | nil => rfl
  | cons first rest ih =>
    obtain ⟨hfirst, hrest⟩ := List.forall_mem_cons.1 h
    rw [List.cons_append, fosterPlace, OpenElement.isHtml_eq_false hfirst (by decide),
      OpenElement.isHtml_eq_false hfirst (by decide)]
    exact ih hrest

/-- What belongs into an element has a place that suits the elements from there down. -/
theorem suits_placeIn_of_append {b : Builder} (hstack : b.stack = above ++ below)
    (habove : ∀ x ∈ above, x.isFrame = false) :
    (b.placeIn (below.headD ⟨0, ⟨.html, "html"⟩⟩)).Suits below := by
  unfold placeIn
  split
  · next hfostering =>
    rw [Bool.and_eq_true] at hfostering
    rw [hstack, fosterPlace_append habove]
    refine .foster fun x hx ↦ ?_
    rw [List.headD_eq_head?_getD, hx, Option.getD_some] at hfostering
    exact OpenElement.isHtmlIn_of_subset hfostering.2 (by decide)
  · exact .inside

theorem suits_placeIn (b : Builder) : (b.placeIn b.current).Suits b.stack :=
  suits_placeIn_of_append (List.nil_append b.stack).symm (List.forall_mem_nil _)

namespace Place

variable {place : Place} {heads : List Head}

theorem unseen_of_meets_fosterPlace (hstacked : Stacked stack next) (h : Fits stack next n heads)
    (hfooted : Footed stack) (hmeets : (fosterPlace stack).Meets n heads) : Unseen stack heads := by
  induction stack with
  | nil => exact List.forall_mem_nil _
  | cons element rest ih =>
    have hframe : element.isFrame = true := hfooted element rfl
    suffices Unseen rest heads by
      refine List.forall_mem_cons.2 ⟨fun hnot ↦ ?_, this⟩
      rw [hframe] at hnot
      cases hnot
    have hrest : Stacked rest next := hstacked.tail
    obtain ⟨houtside, hbelow⟩ := List.pairwise_cons.1 h.outside
    unfold fosterPlace at hmeets
    split at hmeets
    · exact fun x hx _ ↦ houtside x hx (hmeets ▸ element.owns_inner)
    · next htemplate =>
      split at hmeets
      · next htable =>
        rcases hmeets with hin | rfl
        · exact fun x hx hnot ↦ (List.pairwise_cons.1 h.alone).1 x hx htable hnot hin
        · cases rest with
          | nil => exact List.forall_mem_nil _
          | cons second others =>
            refine List.forall_mem_cons.2 ⟨fun _ ↦ ?_, fun x hx _ ↦ ?_⟩
            · exact h.outside_self second (by simp) second.owns_id
            · exact (List.pairwise_cons.1 hbelow).1 x hx second.owns_id
      · next htable =>
        by_cases hpart : element.isPart = true
        · exact ih hrest (h.sublist (List.sublist_cons_self _ _)) (hstacked.braced.1 hpart) hmeets
        · have hhtml : element.isHtml "html" = true :=
            OpenElement.isHtml_html_of_isFrame hframe htable htemplate hpart
          intro x hx
          exact absurd hhtml (by simp [(List.pairwise_cons.1 hstacked.lowest).1 x hx])

/-- What belongs into the innermost element is put where none of the open elements is seen. -/
theorem Suits.unseen (hsuits : place.Suits stack) (hstacked : Stacked stack next)
    (h : Fits stack next n heads) (hmeets : place.Meets n heads) : Unseen stack heads := by
  cases hsuits with
  | foster hfooted => exact unseen_of_meets_fosterPlace hstacked h hfooted hmeets
  | inside =>
    cases stack with
    | nil => exact List.forall_mem_nil _
    | cons element rest =>
      obtain rfl : n = element.inner := hmeets
      refine List.forall_mem_cons.2 ⟨fun _ ↦ ?_, fun x hx _ ↦ ?_⟩
      · exact h.outside_self element List.mem_cons_self element.owns_inner
      · exact (List.pairwise_cons.1 h.outside).1 x hx element.owns_inner

theorem not_owns_of_meets_fosterPlace (hstacked : Stacked (above ++ below) next)
    (habove : ∀ x ∈ above, x.isFrame = false) (h : Fits (above ++ below) next n heads)
    (hmeets : (fosterPlace below).Meets n heads) : ∀ x ∈ above, ¬x.Owns n := by
  induction below with
  | nil =>
    obtain rfl : n = 0 := hmeets
    exact fun x hx ↦ hstacked.not_owns_zero (List.mem_append_left _ hx) (habove x hx)
  | cons element rest ih =>
    unfold fosterPlace at hmeets
    split at hmeets
    · obtain rfl : n = element.inner := hmeets
      exact fun x hx ↦ hstacked.not_owns_of_mem_append hx List.mem_cons_self element.owns_inner
    · split at hmeets
      · rcases hmeets with hin | rfl
        · exact fun x hx howns ↦ (List.pairwise_append.1 h.outside).2.2 x hx element
            List.mem_cons_self howns hin
        · cases rest with
          | nil =>
            exact fun x hx ↦ hstacked.not_owns_zero (List.mem_append_left _ hx) (habove x hx)
          | cons second others =>
            exact fun x hx ↦ hstacked.not_owns_of_mem_append hx (by simp) second.owns_id
      · have hsub : (above ++ rest).Sublist (above ++ element :: rest) :=
          (List.Sublist.refl above).append (List.sublist_cons_self _ _)
        have hrest : Stacked rest next := hstacked.append_right.tail
        exact ih (hstacked.sublist hsub (hrest.braced.append habove)) (h.sublist hsub) hmeets

/-- What belongs into an element is put into no element above that. -/
theorem Suits.not_owns (hsuits : place.Suits below) (hstacked : Stacked (above ++ below) next)
    (habove : ∀ x ∈ above, x.isFrame = false) (h : Fits (above ++ below) next n heads)
    (hmeets : place.Meets n heads) : ∀ x ∈ above, ¬x.Owns n := by
  cases hsuits with
  | foster _ => exact not_owns_of_meets_fosterPlace hstacked habove h hmeets
  | inside =>
    cases below with
    | nil =>
      obtain rfl : n = 0 := hmeets
      exact fun x hx ↦ hstacked.not_owns_zero (List.mem_append_left _ hx) (habove x hx)
    | cons element rest =>
      obtain rfl : n = element.inner := hmeets
      exact fun x hx ↦ hstacked.not_owns_of_mem_append hx List.mem_cons_self element.owns_inner

end Place

/-- A node is put at a place, where some family gains it. -/
theorem families_insertAt {b : Builder} {holds holds' : Nat → List Head → Prop} (place : Place)
    {node : Dom} (h : b.tree.Families holds) (hmono : ∀ n heads, holds n heads → holds' n heads)
    (hnode : node.Families holds')
    (hgains : ∀ n heads heads', place.Meets n heads → node.head.Gains heads heads' →
      holds n heads → holds' n heads') : (b.insertAt place node).tree.Families holds' := by
  cases place with
  | last id => exact h.getD_update?_push hmono hnode fun heads heads' ↦ hgains id heads heads' rfl
  | beforeTable table below =>
    unfold insertAt
    dsimp only
    split
    · next tree htree =>
      exact (Dom.Families.insertBefore? hmono hnode
        (fun n heads heads' hin ↦ hgains n heads heads' (.inl hin)) h htree).1
    · exact h.getD_update?_push hmono hnode fun heads heads' ↦ hgains below heads heads' (.inr rfl)

end Builder

end NotebookTree.Html
