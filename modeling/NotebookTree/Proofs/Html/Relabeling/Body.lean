import NotebookTree.Html.Modes
import NotebookTree.Proofs.Html.Relabeling.Adoption

/-!
# Tokens of a body with other names

A token in a body has the same effect in a builder with other names. Tags of known names are treated
there as before, and all other tags are treated alike.

While names change, the text of elements that hold text alone is not to be read, as it may look like
tags. `Orderly` follows the modes as far as that goes: a builder that is in order reads markup, or
the text of an element that may be read.
-/

namespace NotebookTree.Html

namespace Relabeling

variable (r : Relabeling)

/-- May a mode be the one of the contents of an element? -/
def Allows (mode : Mode) : Prop :=
  mode ≠ .text ∧ mode ≠ .tableText ∧ (r.narrowless = true → mode ∉ narrowModes)

/-- The builder reads the contents of an element. -/
structure Content (plan : Plan) : Prop where
  allows_mode : r.Allows plan.mode
  allows_template : ∀ mode ∈ plan.templateModes, r.Allows mode
  reads : plan.reading = .markup ∨ plan.reading = .plain ∧ "plaintext" ∈ r.texts

/-- The builder reads contents, or text in between. -/
inductive Orderly (plan : Plan) : Prop where
  | content (h : r.Content plan)
  /-- Text directly in a table. -/
  | tableText (hmode : plan.mode = .tableText)
    (houter : plan.outerMode ∈ [Mode.table, .tableBody, .row])
    (h : r.Content { plan with mode := plan.outerMode })
  /-- The text of an element that holds text alone. -/
  | text (hmode : plan.mode = .text) {name : String} (hname : name ∈ r.texts)
    (hreading : plan.reading = textReading name)
    (h : r.Content { plan with mode := plan.outerMode, reading := .markup })

variable {r}

theorem textReading_eq_raw {name : String} {tags : List String} (hname : name ∈ tags)
    (htags : ∀ tag ∈ tags, tag ∉ ["script", "textarea", "title"]) :
    textReading name = .raw name := by
  have hnot := htags name hname
  rw [List.mem_cons, not_or] at hnot
  rw [textReading, if_neg hnot.1, if_neg hnot.2]

theorem allows_of_not_mem {mode : Mode}
    (h : mode ∉ [Mode.text, .tableText, .select, .selectInTable, .columnGroup]) :
    r.Allows mode := by
  simp only [List.mem_cons, List.not_mem_nil, or_false, not_or] at h
  refine ⟨h.1, h.2.1, fun _ hmem ↦ ?_⟩
  simp only [narrowModes, List.mem_cons, List.not_mem_nil, or_false] at hmem
  exact hmem.elim h.2.2.1 fun hmem ↦ hmem.elim h.2.2.2.1 h.2.2.2.2

theorem allows_of_narrowless {mode : Mode} (h : r.narrowless = false)
    (hmode : mode ∉ [Mode.text, .tableText]) : r.Allows mode := by
  simp only [List.mem_cons, List.not_mem_nil, or_false, not_or] at hmode
  exact ⟨hmode.1, hmode.2, fun hnarrow ↦ nomatch h.symm.trans hnarrow⟩

end Relabeling

open Relabeling

namespace Builder

variable {r : Relabeling} {plans : Plan → Prop} {b b' : Builder}

/-- The second builder is the first with other names, and the first is in order. Where it reads text
that is no markup, an HTML element is open for it. -/
structure Tracks (r : Relabeling) (b b' : Builder) : Prop extends Follows r r.Orderly b b' where
  html_of_text : b.mode = .text → b.current.name.vocabulary = .html

namespace Tracks

/-- A choice is the same in both builders. -/
theorem ite {c c' : Prop} [Decidable c] [Decidable c'] {yes no yes' no' : Builder} (hc : c' ↔ c)
    (hyes : c → Tracks r yes yes') (hno : ¬c → Tracks r no no') :
    Tracks r (if c then yes else no) (if c' then yes' else no') := by
  by_cases h : c
  · rw [if_pos h, if_pos (hc.2 h)]
    exact hyes h
  · rw [if_neg h, if_neg (mt hc.1 h)]
    exact hno h

end Tracks

namespace Follows

/-! ## Plans -/

/-- A builder in order that reads no such text. -/
theorem tracks (h : Follows r (fun plan ↦ r.Orderly plan ∧ plan.mode ≠ .text) b b') :
    Tracks r b b' :=
  ⟨h.weaken h.plan.1, fun hmode ↦ absurd hmode h.plan.2⟩

theorem orderly (h : Follows r r.Content b b') : Tracks r b b' :=
  (h.weaken ⟨.content h.plan, h.plan.allows_mode.1⟩).tracks

/-- The mode becomes one that may be the mode of contents. -/
theorem withMode (h : Follows r r.Content b b') {mode : Mode} (hmode : r.Allows mode) :
    Follows r r.Content (b.withMode mode) (b'.withMode mode) :=
  h.change (Builder.withMode · mode) (fun _ ↦ rfl) (fun _ ↦ List.Sublist.refl _)
    (fun _ ↦ List.Sublist.refl _) { h.plan with allows_mode := hmode }

theorem withForm (h : Follows r plans b b') (form : Option Nat) :
    Follows r plans { b with form } { b' with form } :=
  h.change (fun b ↦ { b with form }) (fun _ ↦ rfl) (fun _ ↦ List.Sublist.refl _)
    (fun _ ↦ List.Sublist.refl _) h.plan

theorem withDropLineFeed (h : Follows r plans b b') (dropLineFeed : Bool) :
    Follows r plans { b with dropLineFeed } { b' with dropLineFeed } :=
  h.change (fun b ↦ { b with dropLineFeed }) (fun _ ↦ rfl) (fun _ ↦ List.Sublist.refl _)
    (fun _ ↦ List.Sublist.refl _) h.plan

theorem withFostering (h : Follows r plans b b') (fostering : Bool) :
    Follows r plans { b with fostering } { b' with fostering } :=
  h.change (fun b ↦ { b with fostering }) (fun _ ↦ rfl) (fun _ ↦ List.Sublist.refl _)
    (fun _ ↦ List.Sublist.refl _) h.plan

theorem withTableText (h : Follows r plans b b') (tableText : List Char) :
    Follows r plans { b with tableText } { b' with tableText } :=
  h.change (fun b ↦ { b with tableText }) (fun _ ↦ rfl) (fun _ ↦ List.Sublist.refl _)
    (fun _ ↦ List.Sublist.refl _) h.plan

theorem withTemplateModes (h : Follows r r.Content b b') {templateModes : List Mode}
    (hmodes : ∀ mode ∈ templateModes, r.Allows mode) :
    Follows r r.Content { b with templateModes } { b' with templateModes } :=
  h.change (fun b ↦ { b with templateModes }) (fun _ ↦ rfl) (fun _ ↦ List.Sublist.refl _)
    (fun _ ↦ List.Sublist.refl _) { h.plan with allows_template := hmodes }

theorem templateModes_eq (h : Follows r plans b b') : b'.templateModes = b.templateModes :=
  congrArg Plan.templateModes h.plan_eq

theorem tableText_eq (h : Follows r plans b b') : b'.tableText = b.tableText := by
  rw [h.eq_relabel]
  rfl

/-- The open elements ask for a mode that may be the mode of contents. -/
theorem allows_modeOf {templateModes : List Mode} {stack : List OpenElement}
    (htemplate : ∀ mode ∈ templateModes, r.Allows mode)
    (hstack : ∀ element ∈ stack, r.Admits element.name) :
    r.Allows (modeOf templateModes stack) := by
  have hbody : r.Allows .body := allows_of_not_mem (by decide)
  induction stack with
  | nil => exact hbody
  | cons element below ih =>
    obtain ⟨helement, hbelow⟩ := List.forall_mem_cons.1 hstack
    have hnarrow {tag : String} (htag : element.isHtml tag = true) : r.Admits ⟨.html, tag⟩ := by
      simp only [OpenElement.isHtml, Bool.and_eq_true, beq_iff_eq] at htag
      rwa [← htag.1, ← htag.2]
    have hchoice {c : Prop} [Decidable c] {yes no : Mode} (hyes : c → r.Allows yes)
        (hno : ¬c → r.Allows no) : r.Allows (if c then yes else no) := by
      split
      · next hc => exact hyes hc
      · next hc => exact hno hc
    cases below with
    | nil => exact hbody
    | cons next below =>
      rw [modeOf]
      · refine hchoice (fun hselect ↦ ?_) fun _ ↦ ?_
        · have hnarrowless := r.admits_select (hnarrow hselect)
          exact hchoice (fun _ ↦ allows_of_narrowless hnarrowless (by decide))
            fun _ ↦ allows_of_narrowless hnarrowless (by decide)
        refine hchoice (fun _ ↦ allows_of_not_mem (by decide)) fun _ ↦ ?_
        refine hchoice (fun _ ↦ allows_of_not_mem (by decide)) fun _ ↦ ?_
        refine hchoice (fun _ ↦ allows_of_not_mem (by decide)) fun _ ↦ ?_
        refine hchoice (fun _ ↦ allows_of_not_mem (by decide)) fun _ ↦ ?_
        refine hchoice (fun hgroup ↦ ?_) fun _ ↦ ?_
        · exact allows_of_narrowless (r.admits_colgroup.1 (hnarrow hgroup)) (by decide)
        refine hchoice (fun _ ↦ allows_of_not_mem (by decide)) fun _ ↦ ?_
        refine hchoice (fun _ ↦ ?_) fun _ ↦ ?_
        · cases templateModes with
          | nil => exact hbody
          | cons mode rest => exact htemplate mode List.mem_cons_self
        exact hchoice (fun _ ↦ hbody) fun _ ↦ ih hbelow
      · simp

theorem resetMode (h : Follows r r.Content b b') :
    Follows r r.Content b.resetMode b'.resetMode := by
  have hmode : modeOf b'.templateModes b'.stack = modeOf b.templateModes b.stack := by
    rw [h.templateModes_eq, h.stack_eq, modeOf_map]
  rw [Builder.resetMode, Builder.resetMode, hmode]
  exact h.withMode (allows_modeOf h.plan.allows_template h.admits)

/-! ## Tags that are treated alike in several modes -/

/-- An element that holds text alone is opened. -/
theorem openText (h : Follows r r.Content b b') {tag : Tag} (htag : r.AcceptsTag tag)
    (htext : tag.name ∈ textTags) :
    Tracks r (b.openText tag (textReading tag.name))
      (b'.openText (r.tag tag) (textReading tag.name)) := by
  have hopen := h.openHtml htag
  refine ⟨⟨?_, hopen.admits, hopen.keeps, .text rfl (htag.mem_texts htext) rfl ?_⟩, fun _ ↦ rfl⟩
  · rw [Builder.openText, hopen.eq_relabel, h.mode_eq]
    rfl
  · exact ⟨h.plan.allows_mode, hopen.plan.allows_template, .inl rfl⟩

theorem openRaw (h : Follows r r.Content b b') {tag : Tag} (htag : r.AcceptsTag tag)
    {tags : List String} (hname : tag.name ∈ tags) (hreserved : ∀ tag ∈ tags, isReserved tag = true)
    (htext : ∀ tag ∈ tags, tag ∈ textTags)
    (hraw : ∀ tag ∈ tags, tag ∉ ["script", "textarea", "title"]) :
    Tracks r (b.openText tag (.raw tag.name))
      (b'.openText (r.tag tag) (.raw (r.tag tag).name)) := by
  have hopen := h.openText htag (htext _ hname)
  rw [textReading_eq_raw hname hraw] at hopen
  rwa [tag_eq_self (hreserved _ hname)] at hopen ⊢

theorem isShadow_eq (h : Follows r plans b b') (tag : Tag) :
    b'.isShadow (r.tag tag) = b.isShadow tag := by
  rw [isShadow, isShadow, h.stack_eq, List.length_map]
  rfl

theorem headStart (h : Follows r r.Content b b') {tag : Tag} (htag : r.AcceptsTag tag) :
    Tracks r (b.headStart tag) (b'.headStart (r.tag tag)) := by
  unfold Builder.headStart
  refine .ite (rename_mem_iff (by decide)) (fun _ ↦ (h.addHtml htag).orderly) fun _ ↦ ?_
  refine .ite (r.rename_eq_iff (by decide)) (fun hname ↦ ?_) fun _ ↦ ?_
  · have hopen := h.openText htag (hname ▸ by decide)
    rwa [hname] at hopen
  refine .ite (rename_mem_iff (by decide)) (fun hname ↦ ?_) fun _ ↦ ?_
  · exact h.openRaw htag hname (by decide) (by decide) (by decide)
  refine .ite (r.rename_eq_iff (by decide)) (fun hname ↦ ?_) fun _ ↦ ?_
  · have hopen := h.openText htag (hname ▸ by decide)
    rwa [hname] at hopen
  refine .ite (r.rename_eq_iff (by decide)) (fun _ ↦ ?_) fun _ ↦ h.orderly
  have hopen : Follows r r.Content (if b.isShadow tag then b else b.openHtml tag)
      (if b'.isShadow (r.tag tag) then b' else b'.openHtml (r.tag tag)) :=
    ite (by rw [h.isShadow_eq]) (fun _ ↦ h) fun _ ↦ h.openHtml htag
  have htemplate : r.Allows .template := allows_of_not_mem (by decide)
  have hmarker := hopen.pushMarker
  dsimp only
  rw [hmarker.templateModes_eq]
  exact ((hmarker.withTemplateModes (List.forall_mem_cons.2
    ⟨htemplate, hmarker.plan.allows_template⟩)).withMode htemplate).orderly

theorem templateEnd (h : Follows r r.Content b b') :
    Follows r r.Content b.templateEnd b'.templateEnd := by
  refine ite (by rw [h.isOpen_eq (by decide)]) (fun _ ↦ ?_) fun _ ↦ h
  have hclosed := ((h.popWhileSeen (sees_isHtmlIn
    (show ∀ tag ∈ templateImpliedTags, isReserved tag = true by decide))).popTag
      (show isReserved "template" = true by decide)).clearToMarker
  dsimp only
  rw [hclosed.templateModes_eq]
  exact (hclosed.withTemplateModes fun mode hmem ↦
    hclosed.plan.allows_template mode (List.mem_of_mem_tail hmem)).resetMode

/-! ## Body -/

theorem isReserved_phraseTags : ∀ tag ∈ phraseTags, isReserved tag = true := by decide

theorem isReserved_blockEndTags : ∀ tag ∈ blockEndTags, isReserved tag = true := by decide

theorem isReserved_headingTags : ∀ tag ∈ headingTags, isReserved tag = true := by decide

/-- A formatting element is opened after those that were closed. -/
theorem openPhrase (h : Follows r r.Content b b') {tag : Tag} (htag : r.AcceptsTag tag)
    (hformatting : tag.name ∈ formattingTags) :
    Tracks r (b.openFormatting tag) (b'.openFormatting (r.tag tag)) := by
  rw [tag_eq_self (isReserved_formattingTags _ hformatting)]
  exact (h.openFormatting hformatting htag).orderly

theorem bodyStart (h : Follows r r.Content b b') {tag : Tag} (htag : r.AcceptsTag tag) :
    Tracks r (b.bodyStart tag) (b'.bodyStart (r.tag tag)) := by
  have hparagraph := h.closeOpenParagraph
  have hreopened := h.reopenFormatting
  unfold Builder.bodyStart
  refine .ite (rename_mem_iff (by decide)) (fun _ ↦ h.headStart htag) fun _ ↦ ?_
  refine .ite (rename_mem_iff (by decide)) (fun _ ↦ h.orderly) fun _ ↦ ?_
  -- Blocks.
  refine .ite (rename_mem_iff (by decide)) (fun _ ↦ (hparagraph.openHtml htag).orderly) fun _ ↦ ?_
  refine .ite (rename_mem_iff isReserved_headingTags) (fun _ ↦ ?_) fun _ ↦ ?_
  · refine (openHtml (ite ?_ (fun _ ↦ hparagraph.pop) fun _ ↦ hparagraph) htag).orderly
    rw [hparagraph.isHtmlIn_current isReserved_headingTags]
  refine .ite (rename_mem_iff (by decide))
    (fun _ ↦ ((hparagraph.openHtml htag).withDropLineFeed true).orderly) fun _ ↦ ?_
  refine .ite (r.rename_eq_iff (by decide)) (fun _ ↦ ?_) fun _ ↦ ?_
  · refine .ite (by rw [h.form_eq, h.isOpen_eq (by decide)]) (fun _ ↦ h.orderly) fun _ ↦ ?_
    have hform := hparagraph.openHtml htag
    dsimp only
    rw [hparagraph.nextId_eq]
    exact .ite (by rw [hform.isOpen_eq (by decide)]) (fun _ ↦ hform.orderly)
      fun _ ↦ (hform.withForm _).orderly
  refine .ite (r.rename_eq_iff (by decide)) (fun _ ↦
    ((h.closeItem (by decide)).closeOpenParagraph.openHtml htag).orderly) fun _ ↦ ?_
  refine .ite (rename_mem_iff (by decide)) (fun _ ↦
    ((h.closeItem (by decide)).closeOpenParagraph.openHtml htag).orderly) fun _ ↦ ?_
  refine .ite (r.rename_eq_iff (by decide)) (fun hname ↦ ?_) fun _ ↦ ?_
  · have hplain : "plaintext" ∈ r.texts := hname ▸ htag.mem_texts (hname ▸ by decide)
    have hopen := hparagraph.openHtml htag
    exact (hopen.change (fun b ↦ { b with reading := .plain }) (fun _ ↦ rfl)
      (fun _ ↦ List.Sublist.refl _) (fun _ ↦ List.Sublist.refl _)
      { hopen.plan with reads := .inr ⟨rfl, hplain⟩ }).orderly
  refine .ite (r.rename_eq_iff (by decide)) (fun _ ↦
    ((h.closeInScope sees_defaultScope (by decide)).reopenFormatting.openHtml htag).orderly)
    fun _ ↦ ?_
  -- Formatting elements.
  refine .ite (r.rename_eq_iff (by decide)) (fun hname ↦
    h.closeOpenLink.reopenFormatting.openPhrase htag (hname ▸ by decide)) fun _ ↦ ?_
  refine .ite (rename_mem_iff isReserved_phraseTags) (fun hname ↦
    hreopened.openPhrase htag (List.mem_cons_of_mem _ (List.mem_cons_of_mem _ hname))) fun _ ↦ ?_
  refine .ite (r.rename_eq_iff (by decide)) (fun hname ↦ ?_) fun _ ↦ ?_
  · refine openPhrase (ite ?_ (fun _ ↦ ?_) fun _ ↦ hreopened) htag (hname ▸ by decide)
    · rw [hreopened.inScope_eq sees_defaultScope (by decide)]
    · exact (hreopened.closeFormatting (by decide)).reopenFormatting
  refine .ite (rename_mem_iff (by decide)) (fun _ ↦
    (hreopened.openHtml htag).pushMarker.orderly) fun _ ↦ ?_
  refine .ite (r.rename_eq_iff (by decide)) (fun _ ↦
    ((hparagraph.openHtml htag).withMode (allows_of_not_mem (by decide))).orderly) fun _ ↦ ?_
  -- Elements without contents.
  refine .ite (rename_mem_iff (by decide)) (fun _ ↦ (hreopened.addHtml htag).orderly) fun _ ↦ ?_
  refine .ite (rename_mem_iff (by decide)) (fun _ ↦ (h.addHtml htag).orderly) fun _ ↦ ?_
  refine .ite (r.rename_eq_iff (by decide)) (fun _ ↦ (hparagraph.addHtml htag).orderly) fun _ ↦ ?_
  refine .ite (r.rename_eq_iff (by decide)) (fun _ ↦ ?_) fun _ ↦ ?_
  · exact (hreopened.addKnown { tag with name := "img" } (show isReserved "img" = true by decide)
      htag.htmlAttributes_eq).orderly
  -- Elements that hold text alone.
  refine .ite (r.rename_eq_iff (by decide)) (fun hname ↦ ?_) fun _ ↦ ?_
  · have hopen := h.openText htag (hname ▸ by decide)
    rw [tag_eq_self (hname ▸ by decide)] at hopen ⊢
    rw [hname] at hopen ⊢
    exact ⟨hopen.toFollows.withDropLineFeed true, hopen.html_of_text⟩
  refine .ite (r.rename_eq_iff (by decide)) (fun hname ↦ ?_) fun _ ↦ ?_
  · exact hparagraph.reopenFormatting.openRaw htag (List.mem_singleton.2 hname) (by decide)
      (by decide) (by decide)
  refine .ite (rename_mem_iff (by decide)) (fun hname ↦
    h.openRaw htag hname (by decide) (by decide) (by decide)) fun _ ↦ ?_
  -- Selections.
  refine .ite (r.rename_eq_iff (by decide)) (fun hname ↦ ?_) fun _ ↦ ?_
  · have hnarrowless : r.narrowless = false := r.admits_select (hname ▸ htag.admits_tagName .html)
    have hmode : r.Allows (if b.mode ∈ [Mode.table, .caption, .tableBody, .row, .cell] then
        .selectInTable else .select) := by
      split <;> exact allows_of_narrowless hnarrowless (by decide)
    dsimp only
    rw [h.mode_eq]
    exact ((hreopened.openHtml htag).withMode hmode).orderly
  refine .ite (rename_mem_iff (by decide)) (fun _ ↦ ?_) fun _ ↦ ?_
  · refine (openHtml (reopenFormatting (ite ?_ (fun _ ↦ h.pop) fun _ ↦ h)) htag).orderly
    rw [h.isHtml_current (by decide)]
  -- Elements whose end tags are implied.
  refine .ite (rename_mem_iff (by decide)) (fun _ ↦ ?_) fun _ ↦ ?_
  · refine (openHtml (ite ?_ (fun _ ↦ h.closeImplied) fun _ ↦ h) htag).orderly
    rw [h.inScope_eq sees_defaultScope (by decide)]
  refine .ite (rename_mem_iff (by decide)) (fun _ ↦ ?_) fun _ ↦ ?_
  · refine (openHtml (ite ?_ (fun _ ↦ h.closeImpliedExcept (by decide)) fun _ ↦ h) htag).orderly
    rw [h.inScope_eq sees_defaultScope (by decide)]
  -- Other vocabularies.
  refine .ite (r.rename_eq_iff (by decide)) (fun _ ↦
    (hreopened.openForeign .mathml htag).orderly) fun _ ↦ ?_
  exact .ite (r.rename_eq_iff (by decide)) (fun _ ↦ (hreopened.openForeign .svg htag).orderly)
    fun _ ↦ (hreopened.openHtml htag).orderly

theorem formEnd (h : Follows r plans b b') : Follows r plans b.formEnd b'.formEnd := by
  unfold Builder.formEnd
  refine ite (by rw [h.isOpen_eq (by decide)])
    (fun _ ↦ h.closeInScope sees_defaultScope (by decide)) fun _ ↦ ?_
  rw [h.form_eq]
  split
  · exact h
  · next id _ =>
    have hclosed := h.withForm none
    dsimp only
    refine ite ?_ (fun _ ↦ hclosed.closeImplied.removeOpen id) fun _ ↦ hclosed
    rw [hclosed.inScopeWhere_eq sees_defaultScope (sees_id (· == id))]

theorem bodyEnd (h : Follows r r.Content b b') {name : String} (hname : r.AcceptsEnd name) :
    Tracks r (b.bodyEnd name) (b'.bodyEnd (r.rename name)) := by
  have hself {tags : List String} (htags : ∀ tag ∈ tags, isReserved tag = true)
      (hmem : name ∈ tags) : r.rename name = name ∧ isReserved name = true :=
    ⟨rename_eq_self (htags name hmem), htags name hmem⟩
  unfold Builder.bodyEnd
  refine .ite (r.rename_eq_iff (by decide)) (fun _ ↦ h.templateEnd.orderly) fun _ ↦ ?_
  refine .ite (rename_mem_iff (by decide)) (fun _ ↦ h.orderly) fun _ ↦ ?_
  refine .ite (rename_mem_iff isReserved_blockEndTags) (fun hmem ↦ ?_) fun _ ↦ ?_
  · obtain ⟨heq, hreserved⟩ := hself isReserved_blockEndTags hmem
    rw [heq]
    exact (h.closeInScope sees_defaultScope hreserved).orderly
  refine .ite (r.rename_eq_iff (by decide)) (fun _ ↦ h.formEnd.orderly) fun _ ↦ ?_
  refine .ite (r.rename_eq_iff (by decide)) (fun _ ↦ ?_) fun _ ↦ ?_
  · refine (closeParagraph (ite ?_ (fun _ ↦ h) fun _ ↦ ?_)).orderly
    · rw [h.inScope_eq sees_buttonScope (by decide)]
    · exact h.openTag (by decide) (r.admits_impliedTag _ (by decide))
  refine .ite (rename_mem_iff (by decide)) (fun hmem ↦ ?_) fun _ ↦ ?_
  · obtain ⟨heq, hreserved⟩ := hself (by decide) hmem
    have hscope : r.Sees (if name = "li" then listItemScope else defaultScope) := by
      split
      · exact sees_listItemScope
      · exact sees_defaultScope
    rw [heq]
    refine (ite (by rw [h.inScope_eq hscope hreserved]) (fun _ ↦ ?_) fun _ ↦ h).orderly
    exact (h.closeImpliedExcept (List.forall_mem_singleton.2 hreserved)).popTag hreserved
  refine .ite (rename_mem_iff isReserved_headingTags) (fun _ ↦ ?_) fun _ ↦ ?_
  · refine (ite ?_ (fun _ ↦ ?_) fun _ ↦ h).orderly
    · rw [h.inScopeWhere_eq sees_defaultScope (sees_isHtmlIn isReserved_headingTags)]
    · exact h.closeImplied.popThrough (sees_isHtmlIn isReserved_headingTags)
  refine .ite ?_ (fun hor ↦ ?_) fun _ ↦ ?_
  · rw [r.rename_eq_iff (by decide), r.rename_eq_iff (by decide),
      rename_mem_iff isReserved_phraseTags]
  · have hmem : name ∈ "a" :: "nobr" :: phraseTags := by
      rwa [List.mem_cons, List.mem_cons]
    obtain ⟨heq, hreserved⟩ := hself (by decide) hmem
    rw [heq]
    exact (h.closeFormatting hreserved).orderly
  refine .ite (rename_mem_iff (by decide)) (fun hmem ↦ ?_) fun _ ↦ ?_
  · obtain ⟨heq, hreserved⟩ := hself (by decide) hmem
    rw [heq]
    refine (ite ?_ (fun _ ↦ ?_) fun _ ↦ h).orderly
    · rw [h.inScope_eq sees_defaultScope hreserved]
    · exact (h.closeInScope sees_defaultScope hreserved).clearToMarker
  refine .ite (r.rename_eq_iff (by decide)) (fun _ ↦ ?_) fun _ ↦ ?_
  · exact (h.reopenFormatting.addKnown ⟨"br", [], false⟩ (show isReserved "br" = true by decide)
      r.attributes_nil).orderly
  · exact (h.closeOrdinary fun element hmem ↦
      (hname element.name (h.admits element hmem)).1).orderly

theorem inBody (h : Follows r r.Content b b') {token : Token} (htoken : r.Accepts token) :
    Tracks r (b.inBody token) (b'.inBody (r.token token)) := by
  cases token with
  | characters text => exact (h.reopenFormatting.appendText text).orderly
  | comment => exact h.appendComment.orderly
  | startTag tag => exact h.bodyStart htoken
  | endTag name => exact h.bodyEnd htoken
  | nullCharacter => exact h.orderly
  | doctype => exact h.orderly
  | fault => exact h.orderly

theorem inBodyFostering (h : Follows r r.Content b b') {token : Token} (htoken : r.Accepts token) :
    Tracks r (b.inBodyFostering token) (b'.inBodyFostering (r.token token)) :=
  let hbody := (h.withFostering true).inBody htoken
  ⟨hbody.toFollows.withFostering false, hbody.html_of_text⟩

end Follows

end Builder

end NotebookTree.Html
