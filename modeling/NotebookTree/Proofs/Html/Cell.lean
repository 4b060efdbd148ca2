import NotebookTree.Proofs.Html.Table

/-!
# Tables in content

A table is opened in content of any kind, and its cells and captions hold such content again. The
end tag of a cell closes it with all that is open in it, and the end tag of a table sets the mode
of the content around the table.
-/

namespace NotebookTree.Html

open Builder (Scope findInScope tableScope)

variable {w : Watch} {mode : Mode} {holder : OpenElement}
  {below stack above rest : List OpenElement} {ms : List Mark} {id : Nat} {name : String}

/-! ## Closing the holder -/

theorem OpenElement.isHtml_eq_false_of_modal {element : OpenElement} (h : element.isModal = false)
    (hname : name ∈ modalTags) : element.isHtml name = false :=
  isHtml_eq ▸ isHtmlIn_eq_false h (List.cons_subset.2 ⟨hname, List.nil_subset _⟩)

/-- A modal element below ordinary ones is found within the scope of parts of tables. -/
theorem findInScope_append_of_isModal (habove : ∀ element ∈ above, element.isModal = false)
    (hholder : holder.isHtml name = true) :
    findInScope tableScope (·.isHtml name) (above ++ holder :: rest) = true := by
  induction above with
  | nil => rw [List.nil_append, findInScope, hholder, Bool.true_or]
  | cons element above ih =>
    rw [List.forall_mem_cons] at habove
    have hscope : tableScope element = false :=
      OpenElement.isHtmlIn_eq_false habove.1 (by decide)
    rw [List.cons_append, findInScope, hscope, ih habove.2, Bool.not_false, Bool.true_and,
      Bool.or_true]

/-- Closing up to the holder leaves what is below it. -/
theorem Rests.popThrough (h : Rests (holder :: below) stack) (hholder : holder.isHtml name = true)
    (hname : name ∈ modalTags) :
    Thinned below (stack.dropWhile (!·.isHtml name)).tail := by
  obtain ⟨above, rest, rfl, habove, hrest⟩ := h
  obtain ⟨below', rfl, hbelow⟩ := hrest.exists_eq_cons
    (OpenElement.isModal_of_isHtmlIn (OpenElement.isHtml_eq ▸ hholder)
      (List.cons_subset.2 ⟨hname, List.nil_subset _⟩))
  rw [List.dropWhile_append_of_pos fun element hmem ↦ by
    rw [OpenElement.isHtml_eq_false_of_modal (habove element hmem) hname, Bool.not_false],
    List.dropWhile_cons_of_neg (by simp [hholder])]
  exact hbelow

namespace Builder

variable {b : Builder}

/-- Below the holder there is HTML, so that no foreign element is closed by its end tag. -/
theorem foreignEnd_search_eq_none (habove : ∀ element ∈ above, element.isModal = false)
    (hhtml : holder.name.vocabulary = .html) (hrest : rest ≠ []) (hname : name ∈ modalTags)
    {isFirst : Bool} (hfirst : isFirst = true → above ≠ []) :
    foreignEnd.search name (above ++ holder :: rest) isFirst = none := by
  induction above generalizing isFirst with
  | nil =>
    obtain rfl : isFirst = false := by simpa using hfirst
    obtain ⟨next, more, rfl⟩ := List.exists_cons_of_ne_nil hrest
    rw [List.nil_append, foreignEnd.search]
    · simp [hhtml]
    · simp
  | cons element above ih =>
    rw [List.forall_mem_cons] at habove
    have hne : Text.lowerAsciiString element.name.name ≠ name := by
      rintro rfl
      have hmodal : element.isModal = true := decide_eq_true hname
      exact Bool.false_ne_true (habove.1.symm.trans hmodal)
    rw [List.cons_append, foreignEnd.search]
    · split
      · rfl
      · rw [if_neg (by simpa using hne)]
        exact ih habove.2 fun heq ↦ absurd heq Bool.false_ne_true
    · simp

/-- The mode after a cell or a caption. -/
def modeAfter (name : String) : Mode := if name = "caption" then .table else .row

namespace Flows

/-- The holder is found, and closing it leaves the parts of the table that are around it. -/
theorem closeInScope_nested (h : b.Flows w ⟨id, ⟨.html, name⟩⟩ below ms) (hname : name ∈ modalTags)
    (mode' : Mode) : b.inScope tableScope name = true ∧
      ((b.closeInScope tableScope name).clearToMarker.withMode mode').Nested w mode' below ms := by
  have hholder : OpenElement.isHtml ⟨id, ⟨.html, name⟩⟩ name = true := by simp [OpenElement.isHtml]
  have hopen : b.inScope tableScope name = true := by
    obtain ⟨above, rest, hstack, habove, hrest⟩ := h.framed.rests
    obtain ⟨below', rfl⟩ := hrest.exists_eq_holder h.framed.isHolder
    rw [inScope, inScopeWhere, hstack, findInScope_append_of_isModal habove hholder]
  have hframed := h.framed.closeImplied.clearToMarker
  refine ⟨hopen, ?_⟩
  rw [closeInScope, if_pos hopen]
  refine ⟨?_, hframed.rests.popThrough hholder hname, ?_⟩
  · exact { (h.steady.closeImplied.popTag name).clearToMarker with mode_eq := rfl }
  · exact { hframed.free.mono fun element hmem _ ↦ List.mem_cons_of_mem _ hmem with }

/-- The end tag of a cell or a caption closes it. -/
theorem accept_endTag_part (h : b.Flows w ⟨id, ⟨.html, name⟩⟩ below ms)
    (hname : name ∈ ["caption", "td", "th"]) (hbelow : ∃ element ∈ below, element.isModal = true) :
    (b.accept (.endTag name)).Nested w (modeAfter name) below ms := by
  have hmodal : name ∈ modalTags :=
    (show ∀ name ∈ ["caption", "td", "th"], name ∈ modalTags by decide) name hname
  obtain ⟨hopen, hnested⟩ := h.closeInScope_nested hmodal (modeAfter name)
  have hstep : b.inMode (.endTag name) =
      .done ((b.closeInScope tableScope name).clearToMarker.withMode (modeAfter name)) := by
    have hmode := h.steady.mode_eq
    simp only [List.mem_cons, List.not_mem_nil, or_false] at hname
    rw [inMode, hmode]
    rcases hname with rfl | rfl | rfl <;> exact if_pos hopen
  have haccept : b.accept (.endTag name) =
      (b.closeInScope tableScope name).clearToMarker.withMode (modeAfter name) := by
    refine accept_endTag_eq h.steady.dropLineFeed_eq name ?_
    split
    · next hforeign =>
      obtain ⟨above, rest, hstack, habove, hrest⟩ := h.framed.rests
      obtain ⟨below', rfl, hbelow'⟩ := hrest.exists_eq_cons
        (OpenElement.isModal_of_isHtmlIn h.framed.isHolder (by decide))
      have hne : above ≠ [] := by
        rintro rfl
        simp [isForeign, current, hstack] at hforeign
      have hnone : foreignEnd.search name b.stack true = none := by
        rw [hstack]
        refine foreignEnd_search_eq_none habove rfl ?_ hmodal fun _ ↦ hne
        obtain ⟨element, hmem, helement⟩ := hbelow
        have hrest := (Rests.of_thinned hbelow').mem_stack hmem helement
        exact List.ne_nil_of_mem hrest
      have hnot : name ∉ ["br", "p"] :=
        (show ∀ name ∈ ["caption", "td", "th"], name ∉ ["br", "p"] by decide) name hname
      rw [inForeign, if_neg hnot, foreignEnd, hnone]
      exact hstep
    · exact hstep
  rw [haccept]
  exact hnested

end Flows

/-! ## Tables -/

/-- The mode of the content around a table is set after it. -/
theorem Nested.resetMode (h : b.Nested w mode stack ms) (hseat : IsSeat holder below)
    (hrests : Rests (holder :: below) stack) : b.resetMode.Flows w holder below ms := by
  have hstack := hrests.thinned h.thinned
  refine ⟨{ h.steady with mode_eq := modeOf_of_rests hseat hstack _ }, hseat.isHolder, hstack, ?_⟩
  exact { h.free.mono fun element hmem hmodal ↦ hrests.mem_stack hmem hmodal with }

namespace Flows

variable {tag : Tag}

theorem openTable (h : b.Flows w holder below ms) (hname : tag.name = "table") :
    ∃ s, Rests (holder :: below) s ∧
      Nested w .table (⟨b.nextId, ⟨.html, "table"⟩⟩ :: s) ms
        { b.openHtml tag with mode := .table } := by
  have htag : tag.IsPlain w :=
    ElementName.isPlain_html (hname ▸ by decide) (hname ▸ by decide)
  refine ⟨b.stack, h.framed.rests, { h.steady.openHtml htag with mode_eq := rfl }, ?_, ?_⟩
  · rw [← hname, ← stack_openHtml tag]
    exact .refl _
  · rw [← hname]
    have hfree : (b.openHtml tag).Free (⟨b.nextId, ⟨.html, tag.name⟩⟩ :: b.stack) := by
      refine (h.framed.free.openHtml tag).mono fun element hmem hmodal ↦ ?_
      rcases List.mem_cons.1 hmem with rfl | hmem
      · exact List.mem_cons_self
      · exact List.mem_cons_of_mem _ (h.framed.rests.mem_of_isModal hmem hmodal)
    exact { hfree with }

/-- The opening tag of a table opens it, and ends foreign content. -/
theorem exists_accept_table (h : b.Flows w holder below ms) (hname : tag.name = "table") :
    ∃ (id : Nat) (s : List OpenElement), Rests (holder :: below) s ∧
      (b.accept (.startTag tag)).Nested w .table (⟨id, ⟨.html, "table"⟩⟩ :: s) ms := by
  have hbody (b : Builder) : b.inBody (.startTag tag) =
      { b.closeOpenParagraph.openHtml tag with mode := .table } := by
    obtain ⟨name, attributes, selfClosing⟩ := tag
    subst hname
    rfl
  have hmode : (contentMode holder).TreatsAsBody (.startTag tag) :=
    treatsAsBody_startTag_of_not_mem holder (hname ▸ by decide)
  obtain ⟨b', hflows, haccept⟩ : ∃ b' : Builder, b'.Flows w holder below ms ∧
      b.accept (.startTag tag) = { b'.openHtml tag with mode := .table } := by
    by_cases hforeign : b.isForeign (.startTag tag) = true
    · have hends : Foreign.endsForeign tag = true := by
        have hnames : tag.name ∈ Foreign.endingTags := hname ▸ by decide
        simp [Foreign.endsForeign, hnames]
      refine ⟨_, h.leaveForeign.closeOpenParagraph,
        accept_startTag_eq h.steady.dropLineFeed_eq tag ?_⟩
      rw [if_pos hforeign, inForeign, if_pos hends, hmode _ h.leaveForeign.steady.mode_eq, hbody]
    · refine ⟨_, h.closeOpenParagraph, accept_startTag_eq h.steady.dropLineFeed_eq tag ?_⟩
      rw [if_neg hforeign, hmode _ h.steady.mode_eq, hbody]
  obtain ⟨s, hrests, hnested⟩ := hflows.openTable hname
  exact ⟨b'.nextId, s, hrests, haccept ▸ hnested⟩

end Flows

/-- The end tag of a table closes it. -/
theorem Nested.inMode_endTag_table (h : b.Nested w .table (⟨id, ⟨.html, "table"⟩⟩ :: stack) ms) :
    b.inMode (.endTag "table") = .done b.pop.resetMode := by
  have hmodal : OpenElement.isModal ⟨id, ⟨.html, "table"⟩⟩ = true :=
    OpenElement.isModal_mk (by decide)
  have hopen : b.inScope tableScope "table" = true := h.inScope_eq_true rfl hmodal
  obtain ⟨rest, hstack, -⟩ := h.exists_stack_eq hmodal
  have hpop : b.popTag "table" = b.pop := by
    rw [popTag, popThrough, Builder.pop, hstack,
      List.dropWhile_cons_of_neg (by simp [OpenElement.isHtml])]
  rw [inMode, h.steady.mode_eq]
  dsimp only [inTable]
  rw [if_pos rfl, if_pos hopen, hpop]

namespace Arrives

variable {final : Builder} {chars : List Char}

theorem openTable {tag : Tag} {opening : List Char}
    (h : Arrives (Flows w holder below) isTextChar ms (opening ++ chars) final)
    (hname : tag.name = "table") (hopening : Token.Written (.startTag tag) opening) :
    ∃ (id : Nat) (s : List OpenElement), Rests (holder :: below) s ∧
      Arrives (Nested w .table (⟨id, ⟨.html, "table"⟩⟩ :: s)) isTableBlank ms chars final := by
  obtain ⟨limit, b, hlimit, hflows, rfl⟩ := h.exists_readAll_accept Flows.acceptsText hopening
  obtain ⟨id, s, hrests, hnested⟩ := hflows.exists_accept_table hname
  exact ⟨id, s, hrests, .of_holds hnested hnested.steady.dropLineFeed_eq hlimit⟩

theorem closeTable {closing : List Char}
    (h : Arrives (Nested w .table (⟨id, ⟨.html, "table"⟩⟩ :: stack)) isTableBlank ms
      (closing ++ chars) final)
    (hseat : IsSeat holder below) (hrests : Rests (holder :: below) stack)
    (hclosing : Token.Written (.endTag "table") closing) :
    Arrives (Flows w holder below) isTextChar ms chars final := by
  have hmodal : OpenElement.isModal ⟨id, ⟨.html, "table"⟩⟩ = true :=
    OpenElement.isModal_mk (by decide)
  obtain ⟨limit, b, hlimit, hnested, hmore⟩ := h.exists_inMode hmodal rfl
    takesBlanks_table hclosing
  rw [← hmore _ hnested.inMode_endTag_table]
  exact ((hnested.pop hmodal).resetMode hseat hrests).arrives hlimit

/-- The content of a cell or a caption is read once that has been opened. -/
theorem content
    (h : Arrives (Nested w mode (⟨id, ⟨.html, name⟩⟩ :: below)) isTableBlank ms chars final)
    (hname : name ∈ ["caption", "td", "th"]) (hmode : contentMode ⟨id, ⟨.html, name⟩⟩ = mode) :
    Arrives (Flows w ⟨id, ⟨.html, name⟩⟩ below) isTextChar ms chars final := by
  have hholder : OpenElement.isHtmlIn ⟨id, ⟨.html, name⟩⟩ holderTags = true :=
    Bool.and_eq_true_iff.2
      ⟨rfl, decide_eq_true ((show ["caption", "td", "th"] ⊆ holderTags by decide) hname)⟩
  refine h.imp (fun ms b hb ↦ ?_) fun c hc ↦ bne_iff_ne.2 ?_
  · exact ⟨hmode ▸ hb.steady, hholder, .of_thinned hb.thinned, hb.free⟩
  · rintro rfl
    exact absurd hc (by decide)

/-- A cell or a caption is closed. -/
theorem closeCell {closing : List Char}
    (h : Arrives (Flows w ⟨id, ⟨.html, name⟩⟩ below) isTextChar ms (closing ++ chars) final)
    (hname : name ∈ ["caption", "td", "th"]) (hbelow : ∃ element ∈ below, element.isModal = true)
    (hclosing : Token.Written (.endTag name) closing) :
    Arrives (Nested w (modeAfter name) below) isTableBlank ms chars final := by
  obtain ⟨limit, b, hlimit, hflows, rfl⟩ := h.exists_readAll_accept Flows.acceptsText hclosing
  have hnested := hflows.accept_endTag_part hname hbelow
  exact .of_holds hnested hnested.steady.dropLineFeed_eq hlimit

end Arrives

end Builder

end NotebookTree.Html
