import NotebookTree.Proofs.Html.Relabeling.Body

/-!
# Tokens with other names

In every mode, and in foreign content, a token has the same effect in a builder with other names.
-/

namespace NotebookTree.Html

open Relabeling

/-- What became of a token in two builders, of which the second is the first with other names. -/
inductive Outcome.Follows (r : Relabeling) : Outcome → Outcome → Prop where
  | done {b b' : Builder} (h : Builder.Tracks r b b') : Follows r (.done b) (.done b')
  | again {b b' : Builder} {token token' : Token} (h : Builder.Tracks r b b')
    (htoken : r.Accepts token) (heq : token' = r.token token) :
    Follows r (.again b token) (.again b' token')

theorem Outcome.Follows.ite {r : Relabeling} {c c' : Prop} [Decidable c] [Decidable c']
    {yes no yes' no' : Outcome} (hc : c' ↔ c) (hyes : c → yes.Follows r yes')
    (hno : ¬c → no.Follows r no') :
    Outcome.Follows r (if c then yes else no) (if c' then yes' else no') := by
  by_cases h : c
  · rw [if_pos h, if_pos (hc.2 h)]
    exact hyes h
  · rw [if_neg h, if_neg (mt hc.1 h)]
    exact hno h

namespace Builder

variable {r : Relabeling} {plans : Plan → Prop} {b b' : Builder}

namespace Follows

/-! ## Tables -/

theorem popBackTo (h : Follows r plans b b') {tags : List String}
    (htags : ∀ tag ∈ tags, isReserved tag = true) :
    Follows r plans (b.popBackTo tags) (b'.popBackTo tags) :=
  h.popWhileSeen (sees_isHtmlIn htags).not

theorem backToTable (h : Follows r plans b b') : Follows r plans b.backToTable b'.backToTable :=
  h.popBackTo (by decide)

theorem backToSection (h : Follows r plans b b') :
    Follows r plans b.backToSection b'.backToSection :=
  h.popBackTo (by decide)

theorem backToRow (h : Follows r plans b b') : Follows r plans b.backToRow b'.backToRow :=
  h.popBackTo (by decide)

/-- A part of a table is opened, and the mode is one for its contents. -/
theorem openPart (h : Follows r r.Content b b') {tag : Tag} (htag : r.AcceptsTag tag) {mode : Mode}
    (hmode : mode ∉ [Mode.text, .tableText, .select, .selectInTable, .columnGroup]) :
    Follows r r.Content ((b.openHtml tag).withMode mode)
      ((b'.openHtml (r.tag tag)).withMode mode) :=
  (h.openHtml htag).withMode (allows_of_not_mem hmode)

theorem inTable (h : Follows r r.Content b b')
    (hmode : b.mode ∈ [Mode.table, .tableBody, .row]) {token : Token} (htoken : r.Accepts token) :
    (b.inTable token).Follows r (b'.inTable (r.token token)) := by
  have htext : (if b.current.isHtmlIn ["table", "tbody", "template", "tfoot", "thead", "tr"] then
        Outcome.again { b with outerMode := b.mode, mode := .tableText, tableText := [] } token
      else .done (b.inBodyFostering token)).Follows r
        (if b'.current.isHtmlIn ["table", "tbody", "template", "tfoot", "thead", "tr"] then
          .again { b' with outerMode := b'.mode, mode := .tableText, tableText := [] }
            (r.token token)
        else .done (b'.inBodyFostering (r.token token))) := by
    refine .ite (by rw [h.isHtmlIn_current (by decide)]) (fun _ ↦ .again ?_ htoken rfl)
      fun _ ↦ .done (h.inBodyFostering htoken)
    have hplan : r.Orderly { b.plan with outerMode := b.mode, mode := .tableText } :=
      .tableText rfl hmode ⟨h.plan.allows_mode, h.plan.allows_template, h.plan.reads⟩
    exact (h.change (fun b ↦ { b with outerMode := b.mode, mode := .tableText, tableText := [] })
      (fun _ ↦ rfl) (fun _ ↦ List.Sublist.refl _) (fun _ ↦ List.Sublist.refl _)
      ⟨hplan, nofun⟩).tracks
  cases token with
  | characters text => exact htext
  | nullCharacter => exact htext
  | comment => exact .done h.appendComment.orderly
  | doctype => exact .done h.orderly
  | fault => exact .done h.orderly
  | startTag tag =>
    have htag : r.AcceptsTag tag := htoken
    unfold Builder.inTable
    refine .ite (r.rename_eq_iff (by decide)) (fun _ ↦
      .done (h.backToTable.pushMarker.openPart htag (by decide)).orderly) fun _ ↦ ?_
    refine .ite (r.rename_eq_iff (by decide)) (fun hname ↦ .done ?_) fun _ ↦ ?_
    · have hnarrowless := r.admits_colgroup.1 (hname ▸ htag.admits_tagName .html)
      exact ((h.backToTable.openHtml htag).withMode
        (allows_of_narrowless hnarrowless (by decide))).orderly
    refine .ite (r.rename_eq_iff (by decide)) (fun hname ↦ .again ?_ htag rfl) fun _ ↦ ?_
    · have hnarrowless : r.narrowless = false := by
        rw [← Bool.not_eq_true]
        exact fun hnarrow ↦ htag.ne_col hnarrow hname
      exact ((h.backToTable.openTag (by decide) (r.admits_colgroup.2 hnarrowless)).withMode
        (allows_of_narrowless hnarrowless (by decide))).orderly
    refine .ite (rename_mem_iff (by decide)) (fun _ ↦
      .done (h.backToTable.openPart htag (by decide)).orderly) fun _ ↦ ?_
    refine .ite (rename_mem_iff (by decide)) (fun _ ↦ .again ?_ htag rfl) fun _ ↦ ?_
    · exact ((h.backToTable.openTag (by decide) (r.admits_impliedTag _ (by decide))).withMode
        (allows_of_not_mem (by decide))).orderly
    refine .ite (r.rename_eq_iff (by decide)) (fun _ ↦ ?_) fun _ ↦ ?_
    · refine .ite ?_ (fun _ ↦ .again (h.popTag (by decide)).resetMode.orderly htag rfl)
        fun _ ↦ .done h.orderly
      rw [h.inScope_eq sees_tableScope (by decide)]
    refine .ite (rename_mem_iff (by decide)) (fun _ ↦ .done (h.headStart htag)) fun _ ↦ ?_
    refine .ite ?_ (fun _ ↦ .done (h.addHtml htag).orderly) fun _ ↦ ?_
    · rw [Bool.and_eq_true, Bool.and_eq_true, decide_eq_true_eq, decide_eq_true_eq]
      exact and_congr_left fun _ ↦ r.rename_eq_iff (by decide)
    refine .ite (r.rename_eq_iff (by decide)) (fun _ ↦ ?_) fun _ ↦
      .done (h.inBodyFostering htoken)
    refine .ite (by rw [h.isOpen_eq (by decide), h.form_eq]) (fun _ ↦ .done h.orderly)
      fun _ ↦ .done ?_
    rw [h.nextId_eq]
    exact ((h.addHtml htag).withForm _).orderly
  | endTag name =>
    unfold Builder.inTable
    refine .ite (r.rename_eq_iff (by decide)) (fun _ ↦ ?_) fun _ ↦ ?_
    · refine .ite ?_ (fun _ ↦ .done (h.popTag (by decide)).resetMode.orderly)
        fun _ ↦ .done h.orderly
      rw [h.inScope_eq sees_tableScope (by decide)]
    refine .ite (rename_mem_iff (by decide)) (fun _ ↦ .done h.orderly) fun _ ↦ ?_
    exact .ite (r.rename_eq_iff (by decide)) (fun _ ↦ .done h.templateEnd.orderly)
      fun _ ↦ .done (h.inBodyFostering htoken)

/-- Text directly in a table is placed, and the mode is that of the table again. -/
theorem placeTableText (h : Follows r r.Orderly b b') (hmode : b.mode = .tableText) :
    Follows r (fun plan ↦ r.Content plan ∧ plan.mode ∈ [Mode.table, .tableBody, .row])
      b.placeTableText b'.placeTableText := by
  have houter : Follows r (fun plan ↦ r.Content plan ∧ plan.mode ∈ [Mode.table, .tableBody, .row])
      { b with tableText := [], mode := b.outerMode }
      { b' with tableText := [], mode := b'.outerMode } := by
    refine h.change (fun b ↦ { b with tableText := [], mode := b.outerMode }) (fun _ ↦ rfl)
      (fun _ ↦ List.Sublist.refl _) (fun _ ↦ List.Sublist.refl _) ?_
    cases h.plan with
    | content hcontent => exact absurd hmode hcontent.allows_mode.2.1
    | tableText _ houter hcontent => exact ⟨hcontent, houter⟩
    | text htext _ _ _ => exact absurd (hmode.symm.trans htext) (by decide)
  unfold Builder.placeTableText
  rw [h.tableText_eq]
  refine ite Iff.rfl (fun _ ↦ houter) fun _ ↦ ?_
  exact ite Iff.rfl (fun _ ↦ houter.appendText _) fun _ ↦
    ((houter.withFostering true).reopenFormatting.appendText _).withFostering false

theorem inTableText (h : Follows r r.Orderly b b') (hmode : b.mode = .tableText) {token : Token}
    (htoken : r.Accepts token) :
    (b.inTableText token).Follows r (b'.inTableText (r.token token)) := by
  have hplace := h.placeTableText hmode
  have hplaced := (hplace.weaken hplace.plan.1).orderly
  have hnot : b.mode ≠ .text := by
    rw [hmode]
    decide
  cases token with
  | characters text =>
    show (Outcome.done { b with tableText := b.tableText ++ text }).Follows r
      (.done { b' with tableText := b'.tableText ++ text })
    rw [h.tableText_eq]
    exact .done ((h.withTableText _).weaken ⟨h.plan, hnot⟩).tracks
  | nullCharacter => exact .done (h.weaken ⟨h.plan, hnot⟩).tracks
  | comment => exact .again hplaced htoken rfl
  | startTag tag => exact .again hplaced htoken rfl
  | endTag name => exact .again hplaced htoken rfl
  | doctype => exact .again hplaced htoken rfl
  | fault => exact .again hplaced htoken rfl

theorem inCaption (h : Follows r r.Content b b') {token : Token} (htoken : r.Accepts token) :
    (b.inCaption token).Follows r (b'.inCaption (r.token token)) := by
  have hbody := Outcome.Follows.done (h.inBody htoken)
  have hclosed := ((h.closeInScope sees_tableScope
    (show isReserved "caption" = true by decide)).clearToMarker.withMode
      (show r.Allows .table from allows_of_not_mem (by decide))).orderly
  have hscope : b'.inScope tableScope "caption" = true ↔ b.inScope tableScope "caption" = true := by
    rw [h.inScope_eq sees_tableScope (by decide)]
  have hagain : (if b.inScope tableScope "caption" then
      Outcome.again ((b.closeInScope tableScope "caption").clearToMarker.withMode .table) token
        else .done b).Follows r
      (if b'.inScope tableScope "caption" then
        .again ((b'.closeInScope tableScope "caption").clearToMarker.withMode .table)
          (r.token token)
      else .done b') :=
    .ite hscope (fun _ ↦ .again hclosed htoken rfl) fun _ ↦ .done h.orderly
  cases token with
  | startTag tag =>
    unfold Builder.inCaption
    exact .ite (rename_mem_iff (by decide)) (fun _ ↦ hagain) fun _ ↦ hbody
  | endTag name =>
    unfold Builder.inCaption
    refine .ite (r.rename_eq_iff (by decide)) (fun _ ↦ ?_) fun _ ↦ ?_
    · exact .ite hscope (fun _ ↦ .done hclosed) fun _ ↦ .done h.orderly
    refine .ite (r.rename_eq_iff (by decide)) (fun _ ↦ hagain) fun _ ↦ ?_
    exact .ite (rename_mem_iff (by decide)) (fun _ ↦ .done h.orderly) fun _ ↦ hbody
  | characters text => exact hbody
  | comment => exact hbody
  | nullCharacter => exact hbody
  | doctype => exact hbody
  | fault => exact hbody

theorem inColumnGroup (h : Follows r r.Content b b') {token : Token} (htoken : r.Accepts token) :
    (b.inColumnGroup token).Follows r (b'.inColumnGroup (r.token token)) := by
  have htable : r.Allows .table := allows_of_not_mem (by decide)
  have hcurrent {b b' : Builder} (h : Follows r r.Content b b') :
      b'.currentIs "colgroup" = true ↔ b.currentIs "colgroup" = true := by
    rw [h.isHtml_current (by decide)]
  have hleave {b b' : Builder} (h : Follows r r.Content b b') {token : Token}
      (htoken : r.Accepts token) :
      (if b.currentIs "colgroup" then Outcome.again (b.pop.withMode .table) token
        else .done b).Follows r
      (if b'.currentIs "colgroup" then .again (b'.pop.withMode .table) (r.token token)
        else .done b') :=
    .ite (hcurrent h) (fun _ ↦ .again (h.pop.withMode htable).orderly htoken rfl)
      fun _ ↦ .done h.orderly
  cases token with
  | characters text =>
    have hrest : r.Accepts (.characters (text.dropWhile isTableBlank)) := trivial
    unfold Builder.inColumnGroup
    refine .ite (hcurrent h) (fun _ ↦ ?_) fun _ ↦ .done (h.appendText _).orderly
    exact .ite Iff.rfl (fun _ ↦ .done (h.appendText _).orderly)
      fun _ ↦ hleave (h.appendText _) hrest
  | comment => exact .done h.appendComment.orderly
  | startTag tag =>
    have htag : r.AcceptsTag tag := htoken
    unfold Builder.inColumnGroup
    refine .ite (r.rename_eq_iff (by decide)) (fun _ ↦ .done h.orderly) fun _ ↦ ?_
    refine .ite (r.rename_eq_iff (by decide)) (fun _ ↦ .done (h.addHtml htag).orderly) fun _ ↦ ?_
    exact .ite (r.rename_eq_iff (by decide)) (fun _ ↦ .done (h.headStart htag))
      fun _ ↦ hleave h htoken
  | endTag name =>
    unfold Builder.inColumnGroup
    refine .ite (r.rename_eq_iff (by decide)) (fun _ ↦ ?_) fun _ ↦ ?_
    · exact .ite (hcurrent h) (fun _ ↦ .done (h.pop.withMode htable).orderly)
        fun _ ↦ .done h.orderly
    refine .ite (r.rename_eq_iff (by decide)) (fun _ ↦ .done h.orderly) fun _ ↦ ?_
    exact .ite (r.rename_eq_iff (by decide)) (fun _ ↦ .done h.templateEnd.orderly)
      fun _ ↦ hleave h htoken
  | nullCharacter => exact hleave h htoken
  | doctype => exact hleave h htoken
  | fault => exact hleave h htoken

theorem inTableBody (h : Follows r r.Content b b') (hmode : b.mode = .tableBody) {token : Token}
    (htoken : r.Accepts token) :
    (b.inTableBody token).Follows r (b'.inTableBody (r.token token)) := by
  have htable : r.Allows .table := allows_of_not_mem (by decide)
  have hinTable := h.inTable (by rw [hmode]; decide) htoken
  have hleft := (h.backToSection.pop.withMode htable).orderly
  have hleave : (if b.inScopeWhere tableScope (·.isHtmlIn ["table", "tbody", "tfoot"]) then
      Outcome.again (b.backToSection.pop.withMode .table) token else .done b).Follows r
      (if b'.inScopeWhere tableScope (·.isHtmlIn ["table", "tbody", "tfoot"]) then
        .again (b'.backToSection.pop.withMode .table) (r.token token) else .done b') := by
    refine .ite ?_ (fun _ ↦ .again hleft htoken rfl) fun _ ↦ .done h.orderly
    rw [h.inScopeWhere_eq sees_tableScope (sees_isHtmlIn (by decide))]
  cases token with
  | startTag tag =>
    have htag : r.AcceptsTag tag := htoken
    unfold Builder.inTableBody
    refine .ite (r.rename_eq_iff (by decide)) (fun _ ↦
      .done (h.backToSection.openPart htag (by decide)).orderly) fun _ ↦ ?_
    refine .ite (rename_mem_iff (by decide)) (fun _ ↦ .again ?_ htag rfl) fun _ ↦ ?_
    · exact ((h.backToSection.openTag (by decide) (r.admits_impliedTag _ (by decide))).withMode
        (allows_of_not_mem (by decide))).orderly
    exact .ite (rename_mem_iff (by decide)) (fun _ ↦ hleave) fun _ ↦ hinTable
  | endTag name =>
    have hsections : ∀ tag ∈ ["tbody", "tfoot", "thead"], isReserved tag = true := by decide
    unfold Builder.inTableBody
    refine .ite (rename_mem_iff hsections) (fun hmem ↦ ?_) fun _ ↦ ?_
    · rw [rename_eq_self (hsections name hmem)]
      refine .ite ?_ (fun _ ↦ .done hleft) fun _ ↦ .done h.orderly
      rw [h.inScope_eq sees_tableScope (hsections name hmem)]
    refine .ite (r.rename_eq_iff (by decide)) (fun _ ↦ hleave) fun _ ↦ ?_
    exact .ite (rename_mem_iff (by decide)) (fun _ ↦ .done h.orderly) fun _ ↦ hinTable
  | characters text => exact hinTable
  | comment => exact hinTable
  | nullCharacter => exact hinTable
  | doctype => exact hinTable
  | fault => exact hinTable

theorem inRow (h : Follows r r.Content b b') (hmode : b.mode = .row) {token : Token}
    (htoken : r.Accepts token) : (b.inRow token).Follows r (b'.inRow (r.token token)) := by
  have hinTable := h.inTable (by rw [hmode]; decide) htoken
  have hleft := (h.backToRow.pop.withMode
    (show r.Allows .tableBody from allows_of_not_mem (by decide))).orderly
  have hrow : b'.inScope tableScope "tr" = b.inScope tableScope "tr" :=
    h.inScope_eq sees_tableScope (by decide)
  have hagain : (if b.inScope tableScope "tr" then
      Outcome.again (b.backToRow.pop.withMode .tableBody) token else .done b).Follows r
      (if b'.inScope tableScope "tr" then
        .again (b'.backToRow.pop.withMode .tableBody) (r.token token) else .done b') :=
    .ite (by rw [hrow]) (fun _ ↦ .again hleft htoken rfl) fun _ ↦ .done h.orderly
  cases token with
  | startTag tag =>
    have htag : r.AcceptsTag tag := htoken
    unfold Builder.inRow
    refine .ite (rename_mem_iff (by decide)) (fun _ ↦
      .done (h.backToRow.openPart htag (by decide)).pushMarker.orderly) fun _ ↦ ?_
    exact .ite (rename_mem_iff (by decide)) (fun _ ↦ hagain) fun _ ↦ hinTable
  | endTag name =>
    have hsections : ∀ tag ∈ ["tbody", "tfoot", "thead"], isReserved tag = true := by decide
    unfold Builder.inRow
    refine .ite (r.rename_eq_iff (by decide)) (fun _ ↦ ?_) fun _ ↦ ?_
    · exact .ite (by rw [hrow]) (fun _ ↦ .done hleft) fun _ ↦ .done h.orderly
    refine .ite (r.rename_eq_iff (by decide)) (fun _ ↦ hagain) fun _ ↦ ?_
    refine .ite (rename_mem_iff hsections) (fun hmem ↦ ?_) fun _ ↦ ?_
    · rw [rename_eq_self (hsections name hmem)]
      refine .ite ?_ (fun _ ↦ .again hleft htoken ?_) fun _ ↦ .done h.orderly
      · rw [h.inScope_eq sees_tableScope (hsections name hmem), hrow]
      · rw [Relabeling.token, rename_eq_self (hsections name hmem)]
    exact .ite (rename_mem_iff (by decide)) (fun _ ↦ .done h.orderly) fun _ ↦ hinTable
  | characters text => exact hinTable
  | comment => exact hinTable
  | nullCharacter => exact hinTable
  | doctype => exact hinTable
  | fault => exact hinTable

theorem closeCell (h : Follows r r.Content b b') :
    Follows r r.Content b.closeCell b'.closeCell :=
  (h.closeImplied.popThrough (sees_isHtmlIn (by decide))).clearToMarker.withMode
    (allows_of_not_mem (by decide))

theorem inCell (h : Follows r r.Content b b') {token : Token} (htoken : r.Accepts token) :
    (b.inCell token).Follows r (b'.inCell (r.token token)) := by
  have hbody := Outcome.Follows.done (h.inBody htoken)
  cases token with
  | startTag tag =>
    unfold Builder.inCell
    refine .ite (rename_mem_iff (by decide)) (fun _ ↦ ?_) fun _ ↦ hbody
    refine .ite ?_ (fun _ ↦ .again h.closeCell.orderly htoken rfl) fun _ ↦ .done h.orderly
    rw [h.inScopeWhere_eq sees_tableScope (sees_isHtmlIn (by decide))]
  | endTag name =>
    have hcells : ∀ tag ∈ ["td", "th"], isReserved tag = true := by decide
    have hparts : ∀ tag ∈ ["table", "tbody", "tfoot", "thead", "tr"], isReserved tag = true := by
      decide
    unfold Builder.inCell
    refine .ite (rename_mem_iff hcells) (fun hmem ↦ ?_) fun _ ↦ ?_
    · rw [rename_eq_self (hcells name hmem)]
      refine .ite ?_ (fun _ ↦ .done ?_) fun _ ↦ .done h.orderly
      · rw [h.inScope_eq sees_tableScope (hcells name hmem)]
      · exact ((h.closeInScope sees_tableScope (hcells name hmem)).clearToMarker.withMode
          (allows_of_not_mem (by decide))).orderly
    refine .ite (rename_mem_iff (by decide)) (fun _ ↦ .done h.orderly) fun _ ↦ ?_
    refine .ite (rename_mem_iff hparts) (fun hmem ↦ ?_) fun _ ↦ hbody
    rw [rename_eq_self (hparts name hmem)]
    refine .ite ?_ (fun _ ↦ .again h.closeCell.orderly htoken ?_) fun _ ↦ .done h.orderly
    · rw [h.inScope_eq sees_tableScope (hparts name hmem)]
    · rw [Relabeling.token, rename_eq_self (hparts name hmem)]
  | characters text => exact hbody
  | comment => exact hbody
  | nullCharacter => exact hbody
  | doctype => exact hbody
  | fault => exact hbody

/-! ## Selections, templates and text -/

theorem closeSelect (h : Follows r r.Content b b') :
    Follows r r.Content (b.popTag "select").resetMode (b'.popTag "select").resetMode :=
  (h.popTag (by decide)).resetMode

/-- An option or a group of options is closed before another element. -/
theorem closeOption (h : Follows r r.Content b b') (name : String) (tags : List String)
    (htags : ∀ tag ∈ tags, isReserved tag = true) (known : String)
    (hknown : isReserved known = true) :
    Follows r r.Content (if name ∈ tags && b.currentIs known then b.pop else b)
      (if r.rename name ∈ tags && b'.currentIs known then b'.pop else b') := by
  refine ite ?_ (fun _ ↦ h.pop) fun _ ↦ h
  rw [Bool.and_eq_true, Bool.and_eq_true, decide_eq_true_eq, decide_eq_true_eq,
    rename_mem_iff htags, h.isHtml_current hknown]

theorem inSelect (h : Follows r r.Content b b') {token : Token} (htoken : r.Accepts token) :
    (b.inSelect token).Follows r (b'.inSelect (r.token token)) := by
  have hselect : b'.inScope selectScope "select" = true ↔
      b.inScope selectScope "select" = true := by
    rw [h.inScope_eq sees_selectScope (by decide)]
  cases token with
  | characters text => exact .done (h.appendText text).orderly
  | comment => exact .done h.appendComment.orderly
  | startTag tag =>
    have htag : r.AcceptsTag tag := htoken
    have hoption := h.closeOption tag.name ["option", "optgroup", "hr"] (by decide) "option"
      (by decide)
    have hgroup := hoption.closeOption tag.name ["optgroup", "hr"] (by decide) "optgroup"
      (by decide)
    unfold Builder.inSelect
    refine .ite (rename_mem_iff (by decide)) (fun _ ↦ .done (hgroup.openHtml htag).orderly)
      fun _ ↦ ?_
    refine .ite (r.rename_eq_iff (by decide)) (fun _ ↦ .done (hgroup.addHtml htag).orderly)
      fun _ ↦ ?_
    refine .ite (r.rename_eq_iff (by decide)) (fun _ ↦ ?_) fun _ ↦ ?_
    · exact .ite hselect (fun _ ↦ .done h.closeSelect.orderly) fun _ ↦ .done hgroup.orderly
    refine .ite (rename_mem_iff (by decide)) (fun _ ↦ ?_) fun _ ↦ ?_
    · exact .ite hselect (fun _ ↦ .again h.closeSelect.orderly htag rfl)
        fun _ ↦ .done hgroup.orderly
    exact .ite (rename_mem_iff (by decide)) (fun _ ↦ .done (hgroup.headStart htag))
      fun _ ↦ .done hgroup.orderly
  | endTag name =>
    unfold Builder.inSelect
    refine .ite (r.rename_eq_iff (by decide)) (fun _ ↦ ?_) fun _ ↦ ?_
    · have hclose {b b' : Builder} (h : Follows r r.Content b b') :
          (if b.currentIs "optgroup" then Outcome.done b.pop else .done b).Follows r
            (if b'.currentIs "optgroup" then .done b'.pop else .done b') :=
        .ite (by rw [h.isHtml_current (by decide)]) (fun _ ↦ .done h.pop.orderly)
          fun _ ↦ .done h.orderly
      refine hclose (ite ?_ (fun _ ↦ h.pop) fun _ ↦ h)
      -- Both builders see an option in a group of options, or neither does.
      rw [h.stack_eq]
      cases b.stack with
      | nil => rfl
      | cons option below =>
        cases below with
        | nil => rfl
        | cons group below =>
          simp only [List.map_cons,
            isHtml_openElement (show isReserved "option" = true by decide),
            isHtml_openElement (show isReserved "optgroup" = true by decide)]
    refine .ite (r.rename_eq_iff (by decide)) (fun _ ↦ ?_) fun _ ↦ ?_
    · exact .ite (by rw [h.isHtml_current (by decide)]) (fun _ ↦ .done h.pop.orderly)
        fun _ ↦ .done h.orderly
    refine .ite (r.rename_eq_iff (by decide)) (fun _ ↦ ?_) fun _ ↦ ?_
    · exact .ite hselect (fun _ ↦ .done h.closeSelect.orderly) fun _ ↦ .done h.orderly
    exact .ite (r.rename_eq_iff (by decide)) (fun _ ↦ .done h.templateEnd.orderly)
      fun _ ↦ .done h.orderly
  | nullCharacter => exact .done h.orderly
  | doctype => exact .done h.orderly
  | fault => exact .done h.orderly

theorem inSelectInTable (h : Follows r r.Content b b') {token : Token} (htoken : r.Accepts token) :
    (b.inSelectInTable token).Follows r (b'.inSelectInTable (r.token token)) := by
  have hselect := h.inSelect htoken
  cases token with
  | startTag tag =>
    unfold Builder.inSelectInTable
    exact .ite (rename_mem_iff (by decide)) (fun _ ↦ .again h.closeSelect.orderly htoken rfl)
      fun _ ↦ hselect
  | endTag name =>
    have hparts : ∀ tag ∈ ["caption", "table", "tbody", "tfoot", "thead", "tr", "td", "th"],
        isReserved tag = true := by decide
    unfold Builder.inSelectInTable
    refine .ite (rename_mem_iff hparts) (fun hmem ↦ ?_) fun _ ↦ hselect
    rw [rename_eq_self (hparts name hmem)]
    refine .ite ?_ (fun _ ↦ .again h.closeSelect.orderly htoken ?_) fun _ ↦ .done h.orderly
    · rw [h.inScope_eq sees_tableScope (hparts name hmem)]
    · rw [Relabeling.token, rename_eq_self (hparts name hmem)]
  | characters text => exact hselect
  | comment => exact hselect
  | nullCharacter => exact hselect
  | doctype => exact hselect
  | fault => exact hselect

theorem inTemplate (h : Follows r r.Content b b') {token : Token} (htoken : r.Accepts token) :
    (b.inTemplate token).Follows r (b'.inTemplate (r.token token)) := by
  have hbody := Outcome.Follows.done (h.inBody htoken)
  have hbecome {mode : Mode} (hmode : r.Allows mode) :
      (Outcome.again { b with mode, templateModes := mode :: b.templateModes.tail } token).Follows
        r (.again { b' with mode, templateModes := mode :: b'.templateModes.tail }
          (r.token token)) := by
    rw [h.templateModes_eq]
    refine .again ((h.withTemplateModes (List.forall_mem_cons.2 ⟨hmode, ?_⟩)).withMode
      hmode).orderly htoken rfl
    exact fun mode hmem ↦ h.plan.allows_template mode (List.mem_of_mem_tail hmem)
  cases token with
  | startTag tag =>
    have htag : r.AcceptsTag tag := htoken
    unfold Builder.inTemplate
    refine .ite (rename_mem_iff (by decide)) (fun _ ↦ .done (h.headStart htag)) fun _ ↦ ?_
    refine .ite (rename_mem_iff (by decide)) (fun _ ↦ hbecome (allows_of_not_mem (by decide)))
      fun _ ↦ ?_
    refine .ite (r.rename_eq_iff (by decide)) (fun hname ↦ hbecome ?_) fun _ ↦ ?_
    · have hnarrowless : r.narrowless = false := by
        rw [← Bool.not_eq_true]
        exact fun hnarrow ↦ htag.ne_col hnarrow hname
      exact allows_of_narrowless hnarrowless (by decide)
    refine .ite (r.rename_eq_iff (by decide)) (fun _ ↦ hbecome (allows_of_not_mem (by decide)))
      fun _ ↦ ?_
    exact .ite (rename_mem_iff (by decide)) (fun _ ↦ hbecome (allows_of_not_mem (by decide)))
      fun _ ↦ hbecome (allows_of_not_mem (by decide))
  | endTag name =>
    unfold Builder.inTemplate
    exact .ite (r.rename_eq_iff (by decide)) (fun _ ↦ .done h.templateEnd.orderly)
      fun _ ↦ .done h.orderly
  | characters text => exact hbody
  | comment => exact hbody
  | nullCharacter => exact .done h.orderly
  | doctype => exact .done h.orderly
  | fault => exact .done h.orderly

end Follows

namespace Tracks

theorem inText (h : Tracks r b b') (hmode : b.mode = .text) {token : Token} :
    (b.inText token).Follows r (b'.inText (r.token token)) := by
  cases token with
  | characters text =>
    refine .done ⟨h.appendText text, fun _ ↦ ?_⟩
    rw [current, stack_appendText]
    exact h.html_of_text hmode
  | endTag name =>
    have houter : r.Content { b.plan with mode := b.outerMode, reading := .markup } := by
      cases h.plan with
      | content hcontent => exact absurd hmode hcontent.allows_mode.1
      | tableText htable _ _ => exact absurd (hmode.symm.trans htable) (by decide)
      | text _ _ _ hcontent => exact hcontent
    have hpop := h.pop.change (fun b ↦ { b with mode := b.outerMode, reading := .markup })
      (fun _ ↦ rfl) (fun _ ↦ List.Sublist.refl _) (fun _ ↦ List.Sublist.refl _) houter
    exact .done hpop.orderly
  | startTag tag => exact .done h
  | comment => exact .done h
  | nullCharacter => exact .done h
  | doctype => exact .done h
  | fault => exact .done h

/-- In every mode, a token has the same effect. -/
theorem inMode (h : Tracks r b b') {token : Token} (htoken : r.Accepts token) :
    (b.inMode token).Follows r (b'.inMode (r.token token)) := by
  have hcontent (htext : b.mode ≠ .text) (htable : b.mode ≠ .tableText) :
      Follows r r.Content b b' := by
    refine h.weaken ?_
    cases h.plan with
    | content hcontent => exact hcontent
    | tableText hmode _ _ => exact absurd hmode htable
    | text hmode _ _ _ => exact absurd hmode htext
  unfold Builder.inMode
  rw [h.mode_eq]
  cases hmode : b.mode with
  | body => exact .done ((hcontent (by simp [hmode]) (by simp [hmode])).inBody htoken)
  | text => exact h.inText hmode
  | table =>
    exact (hcontent (by simp [hmode]) (by simp [hmode])).inTable (by simp [hmode]) htoken
  | tableText => exact h.inTableText hmode htoken
  | caption => exact (hcontent (by simp [hmode]) (by simp [hmode])).inCaption htoken
  | columnGroup => exact (hcontent (by simp [hmode]) (by simp [hmode])).inColumnGroup htoken
  | tableBody => exact (hcontent (by simp [hmode]) (by simp [hmode])).inTableBody hmode htoken
  | row => exact (hcontent (by simp [hmode]) (by simp [hmode])).inRow hmode htoken
  | cell => exact (hcontent (by simp [hmode]) (by simp [hmode])).inCell htoken
  | select => exact (hcontent (by simp [hmode]) (by simp [hmode])).inSelect htoken
  | selectInTable =>
    exact (hcontent (by simp [hmode]) (by simp [hmode])).inSelectInTable htoken
  | template => exact (hcontent (by simp [hmode]) (by simp [hmode])).inTemplate htoken

end Tracks

/-! ## Foreign content -/

namespace Follows

theorem vocabulary_current (h : Follows r plans b b') :
    b'.current.name.vocabulary = b.current.name.vocabulary := by
  rw [h.current_eq]
  rfl

theorem isForeign_eq (h : Follows r plans b b') (token : Token) :
    b'.isForeign (r.token token) = b.isForeign token := by
  unfold isForeign
  rw [h.current_eq]
  show (if b.current.name.vocabulary == .html then false else _) = _
  congr 1
  cases token with
  | startTag tag =>
    have hglyph : decide (r.rename tag.name ∉ ["mglyph", "malignmark"]) =
        decide (tag.name ∉ ["mglyph", "malignmark"]) :=
      decide_eq_decide.2 (not_congr (rename_mem_iff (by decide)))
    have hannotation : decide (r.elementName b.current.name = ⟨.mathml, "annotation-xml"⟩) =
        decide (b.current.name = ⟨.mathml, "annotation-xml"⟩) := by
      refine decide_eq_decide.2 ?_
      rw [ElementName.mk.injEq, elementName, ElementName.mk.injEq]
      exact and_congr_right fun _ ↦ r.rename_eq_iff (by decide)
    have hsvg : (r.rename tag.name == "svg") = (tag.name == "svg") := by
      rw [Bool.eq_iff_iff, beq_iff_eq, beq_iff_eq]
      exact r.rename_eq_iff (by decide)
    show (!((Foreign.holdsText (r.elementName b.current.name) &&
      decide (r.rename tag.name ∉ ["mglyph", "malignmark"])) ||
        Foreign.holdsHtml (r.elementName b.current.name) ||
        (decide (r.elementName b.current.name = ⟨.mathml, "annotation-xml"⟩) &&
          r.rename tag.name == "svg"))) = _
    rw [holdsText_elementName, holdsHtml_elementName, hglyph, hannotation, hsvg]
  | characters text =>
    exact congrArg₂ (fun text html ↦ !(text || html)) (holdsText_elementName _)
      (holdsHtml_elementName _)
  | nullCharacter =>
    exact congrArg₂ (fun text html ↦ !(text || html)) (holdsText_elementName _)
      (holdsHtml_elementName _)
  | endTag name => rfl
  | comment => rfl
  | doctype => rfl
  | fault => rfl

theorem endsForeign_tag (tag : Tag) :
    Foreign.endsForeign (r.tag tag) = Foreign.endsForeign tag := by
  have hending : decide (r.rename tag.name ∈ Foreign.endingTags) =
      decide (tag.name ∈ Foreign.endingTags) := decide_eq_decide.2 (rename_mem_iff (by decide))
  have hfont : (r.rename tag.name == "font") = (tag.name == "font") := by
    rw [Bool.eq_iff_iff, beq_iff_eq, beq_iff_eq]
    exact r.rename_eq_iff (by decide)
  show (decide (r.rename tag.name ∈ Foreign.endingTags) || (r.rename tag.name == "font" && _)) = _
  rw [hending, hfont]
  rfl

theorem leaveForeign (h : Follows r plans b b') :
    Follows r plans b.leaveForeign b'.leaveForeign := by
  refine h.popWhileSeen fun element ↦ ?_
  show (!(element.name.vocabulary == .html || Foreign.holdsText (r.elementName element.name) ||
    Foreign.holdsHtml (r.elementName element.name))) = _
  rw [holdsText_elementName, holdsHtml_elementName]

/-- Of two elements or more the innermost is looked at, and then the others. -/
theorem foreignEnd_search_cons (name : String) (element next : OpenElement)
    (below : List OpenElement) (isFirst : Bool) :
    foreignEnd.search name (element :: next :: below) isFirst =
      if !isFirst && element.name.vocabulary == .html then none
      else if Text.lowerAsciiString element.name.name == name then some (some (next :: below))
      else foreignEnd.search name (next :: below) false := by
  rw [foreignEnd.search]
  exact List.cons_ne_nil _ _

theorem foreignEnd (h : Follows r (fun plan ↦ r.Orderly plan ∧ plan.mode ≠ .text) b b')
    {name : String} (hname : r.AcceptsEnd name) :
    (b.foreignEnd name).Follows r (b'.foreignEnd (r.rename name)) := by
  have hsearch (stack : List OpenElement) (hadmits : ∀ element ∈ stack, r.Admits element.name)
      (isFirst : Bool) :
      foreignEnd.search (r.rename name) (stack.map r.openElement) isFirst =
        (foreignEnd.search name stack isFirst).map (Option.map (List.map r.openElement)) ∧
      ∀ below, foreignEnd.search name stack isFirst = some (some below) →
        below.Sublist stack := by
    induction stack generalizing isFirst with
    | nil => exact ⟨rfl, fun _ hfound ↦ by cases hfound⟩
    | cons element below ih =>
      obtain ⟨helement, hbelow⟩ := List.forall_mem_cons.1 hadmits
      cases below with
      | nil => exact ⟨rfl, fun _ hfound ↦ by cases hfound⟩
      | cons next below =>
        obtain ⟨heq, hsub⟩ := ih hbelow false
        have hlower : (Text.lowerAsciiString (r.rename element.name.name) == r.rename name) =
            (Text.lowerAsciiString element.name.name == name) := by
          rw [Bool.eq_iff_iff, beq_iff_eq, beq_iff_eq]
          exact (hname element.name helement).2
        rw [List.map_cons] at heq ⊢
        rw [List.map_cons, foreignEnd_search_cons, foreignEnd_search_cons, heq]
        simp only [openElement, elementName, hlower]
        split
        · exact ⟨rfl, fun _ hfound ↦ by cases hfound⟩
        · split
          · refine ⟨rfl, fun found hfound ↦ ?_⟩
            rw [← Option.some.inj (Option.some.inj hfound)]
            exact List.sublist_cons_self _ _
          · exact ⟨rfl, fun found hfound ↦ (hsub found hfound).cons _⟩
  obtain ⟨heq, hsub⟩ := hsearch b.stack h.admits true
  unfold Builder.foreignEnd
  rw [h.stack_eq, heq]
  cases hfound : foreignEnd.search name b.stack true with
  | none => exact h.tracks.inMode (show r.Accepts (.endTag name) from hname)
  | some found =>
    cases found with
    | none => exact .done h.tracks
    | some below =>
      exact .done (h.withStack fun element hmem ↦
        h.admits element ((hsub below hfound).subset hmem)).tracks

theorem inForeign (h : Follows r (fun plan ↦ r.Orderly plan ∧ plan.mode ≠ .text) b b')
    {token : Token} (htoken : r.Accepts token) :
    (b.inForeign token).Follows r (b'.inForeign (r.token token)) := by
  cases token with
  | nullCharacter => exact .done (h.appendText _).tracks
  | characters text => exact .done (h.appendText text).tracks
  | comment => exact .done h.appendComment.tracks
  | doctype => exact .done h.tracks
  | fault => exact .done h.tracks
  | startTag tag =>
    have htag : r.AcceptsTag tag := htoken
    unfold Builder.inForeign
    refine .ite (by rw [endsForeign_tag]) (fun _ ↦ h.leaveForeign.tracks.inMode htoken)
      fun _ ↦ .done ?_
    rw [h.vocabulary_current]
    exact (h.openForeign _ htag).tracks
  | endTag name =>
    unfold Builder.inForeign
    exact .ite (rename_mem_iff (by decide)) (fun _ ↦ h.leaveForeign.tracks.inMode htoken)
      fun _ ↦ h.foreignEnd htoken

end Follows

/-! ## Whole texts -/

namespace Tracks

theorem settle (h : Tracks r b b') {token : Token} (htoken : r.Accepts token) (limit : Nat) :
    Tracks r (Builder.settle limit b token)
      (Builder.settle limit b' (r.token token)) := by
  induction limit generalizing b b' token with
  | zero => exact h
  | succ limit ih =>
    have hforeign (hforeign : b.isForeign token = true) : b.mode ≠ .text := by
      intro hmode
      unfold isForeign at hforeign
      simp [h.html_of_text hmode] at hforeign
    have hstep : (if b.isForeign token then b.inForeign token else b.inMode token).Follows r
        (if b'.isForeign (r.token token) then b'.inForeign (r.token token)
          else b'.inMode (r.token token)) :=
      .ite (by rw [h.isForeign_eq])
        (fun hc ↦ (h.weaken ⟨h.plan, hforeign hc⟩).inForeign htoken) fun _ ↦ h.inMode htoken
    unfold Builder.settle
    generalize (if b.isForeign token then b.inForeign token else b.inMode token) = outcome
      at hstep ⊢
    generalize (if b'.isForeign (r.token token) then b'.inForeign (r.token token)
      else b'.inMode (r.token token)) = outcome' at hstep ⊢
    cases hstep with
    | done hdone => exact hdone
    | again hagain htoken' heq =>
      rw [heq]
      exact ih hagain htoken'

/-- A token that may be read is read in the same way. -/
theorem accept (h : Tracks r b b') {token : Token} (htoken : r.Accepts token) :
    Tracks r (b.accept token) (b'.accept (r.token token)) := by
  have hnext : Tracks r { b with dropLineFeed := false } { b' with dropLineFeed := false } :=
    ⟨h.withDropLineFeed false, h.html_of_text⟩
  have hdropped : b'.dropLineFeed = b.dropLineFeed := by
    rw [h.eq_relabel]
    rfl
  have hlimit : 8 * b'.stack.length + 16 = 8 * b.stack.length + 16 := by
    rw [h.stack_eq, List.length_map]
  have hsettle {token : Token} (htoken : r.Accepts token) :
      Tracks r
        (Builder.settle (8 * b.stack.length + 16) { b with dropLineFeed := false } token)
        (Builder.settle (8 * b'.stack.length + 16) { b' with dropLineFeed := false }
          (r.token token)) := by
    rw [hlimit]
    exact hnext.settle htoken _
  cases token with
  | characters text =>
    have htext (text : List Char) := hsettle (show r.Accepts (.characters text) from trivial)
    cases text with
    | nil => exact htext []
    | cons c rest =>
      by_cases hc : c = '\n'
      · subst hc
        unfold Builder.accept
        rw [hdropped]
        refine .ite Iff.rfl (fun _ ↦ htext _) fun _ ↦ ?_
        exact .ite Iff.rfl (fun _ ↦ hnext) fun _ ↦ htext rest
      · have hplain (b : Builder) : b.accept (.characters (c :: rest)) =
            Builder.settle (8 * b.stack.length + 16) { b with dropLineFeed := false }
              (.characters (c :: rest)) := by
          unfold Builder.accept
          split <;> simp_all
        have hstep := htext (c :: rest)
        rw [← hplain] at hstep
        show Tracks r _ (b'.accept (.characters (c :: rest)))
        rw [hplain b']
        exact hstep
  | doctype => exact hnext
  | fault => exact hnext
  | startTag tag => exact hsettle htoken
  | endTag name => exact hsettle htoken
  | nullCharacter => exact hsettle htoken
  | comment => exact hsettle htoken

end Tracks

end Builder

end NotebookTree.Html
