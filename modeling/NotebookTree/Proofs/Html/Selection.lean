import NotebookTree.Proofs.Html.Arrival

/-!
# Selections

In a selection only options and groups of options are opened, and a rule may stand between them.
Any text stays where it is. The end tag of a selection closes it with all options that are open,
and sets the mode of the content around it.
-/

namespace NotebookTree.Html.Builder

variable {w : Watch} {holder : OpenElement} {below : List OpenElement} {ms : List Mark}
  {b : Builder} {tag : Tag} {name : String}

/-- What is opened or added in a selection. -/
def optionTags : List String := ["hr", "optgroup", "option"]

/-- The builder reads a selection in the content of the holder. -/
structure Chooses (w : Watch) (holder : OpenElement) (below : List OpenElement) (ms : List Mark)
    (b : Builder) : Prop where
  mode_mem : b.mode ∈ [Mode.select, .selectInTable]
  steady : b.Steady w b.mode ms
  rests : ∃ options id rest, b.stack = options ++ ⟨id, ⟨.html, "select"⟩⟩ :: rest ∧
    (∀ element ∈ options, element.isHtmlIn ["optgroup", "option"] = true) ∧
    Rests (holder :: below) rest
  free : b.Free (holder :: below)

namespace Chooses

/-- Options and selections are elements of HTML. -/
theorem not_isForeign (h : b.Chooses w holder below ms) (token : Token) :
    ¬b.isForeign token = true := by
  obtain ⟨options, id, rest, hstack, hoptions, -⟩ := h.rests
  have hhtml : b.current.name.vocabulary = .html := by
    rw [current, hstack]
    cases options with
    | nil => rfl
    | cons element options =>
      have helement := hoptions element List.mem_cons_self
      rw [OpenElement.isHtmlIn, Bool.and_eq_true] at helement
      exact beq_iff_eq.1 helement.1
  simp [isForeign, hhtml]

theorem appendText (h : b.Chooses w holder below ms) (text : List Char) :
    (b.appendText text).Chooses w holder below (ms ++ text.map .char) := by
  have hsteady := h.steady.appendText text
  obtain ⟨tree, happend⟩ := exists_appendText_eq_withTree (b := b) text
  rw [happend] at hsteady ⊢
  exact ⟨h.mode_mem, hsteady, h.rests, { h.free with }⟩

/-- An option that is the innermost element is closed. -/
theorem pop (h : b.Chooses w holder below ms)
    (hcurrent : b.current.isHtmlIn ["optgroup", "option"] = true) :
    b.pop.Chooses w holder below ms := by
  obtain ⟨options, id, rest, hstack, hoptions, hrest⟩ := h.rests
  refine ⟨h.mode_mem, h.steady.pop, ?_, { h.free with }⟩
  cases options with
  | nil =>
    have hselect : OpenElement.isHtmlIn ⟨id, ⟨.html, "select"⟩⟩ ["optgroup", "option"] = true := by
      rw [current, hstack] at hcurrent
      exact hcurrent
    exact absurd hselect (by simp [OpenElement.isHtmlIn])
  | cons element options =>
    refine ⟨options, id, rest, ?_, fun other hmem ↦ hoptions other (List.mem_cons_of_mem _ hmem),
      hrest⟩
    rw [Builder.pop, hstack]
    rfl

theorem pop_ite (h : b.Chooses w holder below ms) (closes : Bool) {name : String}
    (hname : name ∈ ["optgroup", "option"]) :
    (if closes && b.currentIs name then b.pop else b).Chooses w holder below ms := by
  split
  · next hcloses =>
    rw [Bool.and_eq_true, currentIs, OpenElement.isHtml_eq] at hcloses
    exact h.pop (OpenElement.isHtmlIn_of_subset hcloses.2
      (List.cons_subset.2 ⟨hname, List.nil_subset _⟩))
  · exact h

/-- An option is opened, or a rule added. -/
theorem insertElement (h : b.Chooses w holder below ms) (htag : tag.name ∈ optionTags)
    (opened : Bool) (hopened : opened = true → tag.name ∈ ["optgroup", "option"])
    (attributes : List Attribute) :
    (b.insertElement opened ⟨.html, tag.name⟩ attributes).Chooses w holder below ms := by
  have hplain : tag.IsPlain w :=
    ElementName.isPlain_html ((show ∀ name ∈ optionTags, name ≠ "template" by decide) _ htag)
      ((show ∀ name ∈ optionTags, name ≠ standInTag by decide) _ htag)
  have hsteady := h.steady.insertElement opened hplain attributes
  obtain ⟨options, id, rest, hstack, hoptions, hrest⟩ := h.rests
  obtain ⟨tree, hinsert⟩ :=
    exists_insertElement_eq_withTree (b := b) opened ⟨.html, tag.name⟩ attributes
  rw [hinsert] at hsteady ⊢
  refine ⟨h.mode_mem, hsteady, ?_, h.free.grow tree (Nat.le_add_right _ 2) _⟩
  cases opened with
  | false => exact ⟨options, id, rest, hstack, hoptions, hrest⟩
  | true =>
    refine ⟨⟨b.nextId, ⟨.html, tag.name⟩⟩ :: options, id, rest, congrArg _ hstack,
      List.forall_mem_cons.2 ⟨?_, hoptions⟩, hrest⟩
    exact Bool.and_eq_true_iff.2 ⟨rfl, decide_eq_true (hopened rfl)⟩

/-! ## Tokens in a selection -/

/-- A selection in a table differs as regards the tags of tables alone. -/
theorem inMode_eq (h : b.Chooses w holder below ms) {token : Token}
    (htoken : b.inSelectInTable token = b.inSelect token) : b.inMode token = b.inSelect token := by
  rcases List.mem_cons.1 h.mode_mem with hmode | hmode
  · rw [inMode, hmode]
  · rw [inMode, List.mem_singleton.1 hmode]
    exact htoken

theorem accept_characters (h : b.Chooses w holder below ms) (text : List Char) :
    (b.accept (.characters text)).Chooses w holder below (ms ++ text.map .char) := by
  have haccept : b.accept (.characters text) = b.appendText text := by
    refine accept_characters_eq h.steady.dropLineFeed_eq text ?_
    rw [if_neg (h.not_isForeign _), h.inMode_eq rfl]
    rfl
  rw [haccept]
  exact h.appendText text

theorem accept_startTag (h : b.Chooses w holder below ms) (hname : tag.name ∈ optionTags) :
    (b.accept (.startTag tag)).Chooses w holder below ms := by
  obtain ⟨b', hstep, hchooses⟩ : ∃ b' : Builder, b.inMode (.startTag tag) = .done b' ∧
      b'.Chooses w holder below ms := by
    have hmode : b.inSelectInTable (.startTag tag) = b.inSelect (.startTag tag) := by
      dsimp only [inSelectInTable]
      rw [if_neg ((show ∀ name ∈ optionTags, name ∉ ["caption", "table", "tbody", "tfoot", "thead",
        "tr", "td", "th"] by decide) _ hname)]
    rw [h.inMode_eq hmode]
    dsimp only [inSelect]
    have hclosed := (h.pop_ite (tag.name ∈ ["option", "optgroup", "hr"])
      (show "option" ∈ ["optgroup", "option"] by decide)).pop_ite (tag.name ∈ ["optgroup", "hr"])
      (show "optgroup" ∈ ["optgroup", "option"] by decide)
    split
    · next hoption =>
      refine ⟨_, rfl, hclosed.insertElement hname true (fun _ ↦ ?_) _⟩
      exact (show ["option", "optgroup"] ⊆ ["optgroup", "option"] by decide) hoption
    · next hoption =>
      have hrule : tag.name = "hr" := by
        simp only [optionTags, List.mem_cons, List.not_mem_nil, or_false] at hname hoption
        tauto
      rw [if_pos hrule]
      exact ⟨_, rfl, hclosed.insertElement hname false (fun heq ↦ absurd heq Bool.false_ne_true) _⟩
  rw [accept_startTag_eq h.steady.dropLineFeed_eq tag (by rw [if_neg (h.not_isForeign _), hstep])]
  exact hchooses

/-- The end tag of a group closes the option in it first. -/
theorem exists_inSelect_endTag_optgroup (h : b.Chooses w holder below ms) :
    ∃ b₁ : Builder, b.inSelect (.endTag "optgroup") =
      (if b₁.currentIs "optgroup" then .done b₁.pop else .done b₁) ∧
        b₁.Chooses w holder below ms := by
  have hcurrent {option : OpenElement} {rest : List OpenElement} (hstack : b.stack = option :: rest)
      (hoption : option.isHtml "option" = true) :
      b.current.isHtmlIn ["optgroup", "option"] = true := by
    rw [OpenElement.isHtml_eq] at hoption
    rw [current, hstack]
    exact OpenElement.isHtmlIn_of_subset hoption (by decide)
  unfold inSelect
  dsimp only
  rw [if_pos rfl]
  split
  · next option group rest hstack =>
    by_cases hgroup : (option.isHtml "option" && group.isHtml "optgroup") = true
    · rw [if_pos hgroup]
      exact ⟨b.pop, rfl, h.pop (hcurrent hstack (Bool.and_eq_true_iff.1 hgroup).1)⟩
    · rw [if_neg hgroup]
      exact ⟨b, rfl, h⟩
  · exact ⟨b, rfl, h⟩

/-- The end tag of an option closes it if it is the innermost element. -/
theorem accept_endTag (h : b.Chooses w holder below ms) (hname : name ∈ optionTags) :
    (b.accept (.endTag name)).Chooses w holder below ms := by
  obtain ⟨b', hstep, hchooses⟩ : ∃ b' : Builder, b.inMode (.endTag name) = .done b' ∧
      b'.Chooses w holder below ms := by
    have hmode : b.inSelectInTable (.endTag name) = b.inSelect (.endTag name) := by
      dsimp only [inSelectInTable]
      rw [if_neg ((show ∀ name ∈ optionTags, name ∉ ["caption", "table", "tbody", "tfoot", "thead",
        "tr", "td", "th"] by decide) _ hname)]
    rw [h.inMode_eq hmode]
    simp only [optionTags, List.mem_cons, List.not_mem_nil, or_false] at hname
    rcases hname with rfl | rfl | rfl
    · exact ⟨b, rfl, h⟩
    · obtain ⟨b₁, hstep, hclosed⟩ := h.exists_inSelect_endTag_optgroup
      refine ⟨_, ?_, hclosed.pop_ite true (show "optgroup" ∈ ["optgroup", "option"] by decide)⟩
      rw [hstep, ← apply_ite Outcome.done, Bool.true_and]
    · refine ⟨_, ?_, h.pop_ite true (show "option" ∈ ["optgroup", "option"] by decide)⟩
      rw [Bool.true_and, apply_ite Outcome.done]
      rfl
  have haccept : b.accept (.endTag name) = b' := by
    refine accept_endTag_eq h.steady.dropLineFeed_eq name ?_
    rw [if_neg (h.not_isForeign _), hstep]
  rw [haccept]
  exact hchooses

/-- The selection is found, with nothing but options above it. -/
theorem exists_popTag (h : b.Chooses w holder below ms) :
    b.inScope selectScope "select" = true ∧ Rests (holder :: below) (b.popTag "select").stack := by
  obtain ⟨options, id, rest, hstack, hoptions, hrest⟩ := h.rests
  rw [inScope, inScopeWhere, popTag, popThrough, hstack]
  clear hstack
  induction options with
  | nil =>
    rw [List.nil_append, List.dropWhile_cons_of_neg (by simp [OpenElement.isHtml])]
    exact ⟨rfl, hrest⟩
  | cons element options ih =>
    rw [List.forall_mem_cons] at hoptions
    have hselect : element.isHtml "select" = false := by
      rw [OpenElement.isHtml_eq]
      exact OpenElement.isHtmlIn_eq_false_of_disjoint hoptions.1 (by decide)
    obtain ⟨hopen, hrests⟩ := ih hoptions.2
    refine ⟨?_, ?_⟩
    · rw [List.cons_append, findInScope, selectScope, hoptions.1, hopen]
      exact Bool.or_true _
    · rw [List.cons_append, List.dropWhile_cons_of_pos (by simp [hselect])]
      exact hrests

/-- The end tag of a selection closes it. -/
theorem accept_endTag_select (h : b.Chooses w holder below ms) (hseat : IsSeat holder below) :
    (b.accept (.endTag "select")).Flows w holder below ms := by
  obtain ⟨hopen, hrests⟩ := h.exists_popTag
  have haccept : b.accept (.endTag "select") = (b.popTag "select").resetMode := by
    refine accept_endTag_eq h.steady.dropLineFeed_eq "select" ?_
    rw [if_neg (h.not_isForeign _), h.inMode_eq rfl]
    exact if_pos hopen
  rw [haccept]
  refine ⟨{ h.steady.popTag "select" with mode_eq := modeOf_of_rests hseat hrests _ }, ?_⟩
  exact ⟨hseat.isHolder, hrests, { h.free with }⟩

end Chooses

/-- The opening tag of a selection opens it, where there are no foreign elements. -/
theorem Flows.accept_startTag_select (h : b.Flows w holder below ms) (hforeign : w.foreign = false)
    (hname : tag.name = "select") : (b.accept (.startTag tag)).Chooses w holder below ms := by
  have hmode : (contentMode holder).TreatsAsBody (.startTag tag) :=
    treatsAsBody_startTag_of_not_mem holder (hname ▸ by decide)
  have hplain : tag.IsPlain w :=
    ElementName.isPlain_html (hname ▸ by decide) (hname ▸ by decide)
  have hnotForeign : ¬b.isForeign (.startTag tag) = true := fun hisForeign ↦
    Bool.false_ne_true (hforeign.symm.trans (h.steady.foreign_of_isForeign hisForeign))
  obtain ⟨mode, hmem, hbody⟩ : ∃ mode ∈ [Mode.select, .selectInTable],
      b.inBody (.startTag tag) = { b.reopenFormatting.openHtml tag with mode } := by
    obtain ⟨name, attributes, selfClosing⟩ := tag
    subst hname
    refine ⟨if b.mode ∈ [Mode.table, .caption, .tableBody, .row, .cell] then .selectInTable
      else .select, ?_, rfl⟩
    split <;> simp
  rw [accept_startTag_eq h.steady.dropLineFeed_eq tag
    (by rw [if_neg hnotForeign, hmode _ h.steady.mode_eq, hbody])]
  have hopen := h.reopenFormatting
  have hsteady := hopen.steady.openHtml hplain
  refine ⟨hmem, { hsteady with mode_eq := rfl }, ?_, ?_⟩
  · refine ⟨[], b.reopenFormatting.nextId, b.reopenFormatting.stack, ?_,
      fun _ hmem ↦ absurd hmem List.not_mem_nil, hopen.framed.rests⟩
    rw [← hname]
    exact stack_openHtml tag
  · have hfree := (hopen.framed.free.openHtml tag).mono fun element hmem _ ↦
      List.mem_cons_of_mem _ hmem
    exact { hfree with }

/-! ## From place to place in a selection -/

theorem Chooses.acceptsText : AcceptsText (Chooses w holder below) :=
  ⟨fun h ↦ h.steady.reading_eq, fun text h ↦ h.accept_characters text⟩

theorem Chooses.arrives (h : b.Chooses w holder below ms) {rest : List Char} {limit : Nat}
    (hlimit : rest.length < limit) :
    Arrives (Chooses w holder below) isTextChar ms rest (b.readAll limit rest) :=
  .of_holds h h.steady.dropLineFeed_eq hlimit

namespace Arrives

variable {final : Builder} {cs rest : List Char}

theorem openSelection (h : Arrives (Flows w holder below) isTextChar ms (cs ++ rest) final)
    (hforeign : w.foreign = false) (hname : tag.name = "select")
    (hwritten : Token.Written (.startTag tag) cs) :
    Arrives (Chooses w holder below) isTextChar ms rest final := by
  obtain ⟨limit, b, hlimit, hflows, rfl⟩ := h.exists_readAll_accept Flows.acceptsText hwritten
  exact (hflows.accept_startTag_select hforeign hname).arrives hlimit

theorem closeSelection (h : Arrives (Chooses w holder below) isTextChar ms (cs ++ rest) final)
    (hseat : IsSeat holder below) (hwritten : Token.Written (.endTag "select") cs) :
    Arrives (Flows w holder below) isTextChar ms rest final := by
  obtain ⟨limit, b, hlimit, hchooses, rfl⟩ := h.exists_readAll_accept Chooses.acceptsText hwritten
  exact (hchooses.accept_endTag_select hseat).arrives hlimit

theorem openOption (h : Arrives (Chooses w holder below) isTextChar ms (cs ++ rest) final)
    (hname : tag.name ∈ optionTags) (hwritten : Token.Written (.startTag tag) cs) :
    Arrives (Chooses w holder below) isTextChar ms rest final := by
  obtain ⟨limit, b, hlimit, hchooses, rfl⟩ := h.exists_readAll_accept Chooses.acceptsText hwritten
  exact (hchooses.accept_startTag hname).arrives hlimit

theorem closeOption (h : Arrives (Chooses w holder below) isTextChar ms (cs ++ rest) final)
    (hname : name ∈ optionTags) (hwritten : Token.Written (.endTag name) cs) :
    Arrives (Chooses w holder below) isTextChar ms rest final := by
  obtain ⟨limit, b, hlimit, hchooses, rfl⟩ := h.exists_readAll_accept Chooses.acceptsText hwritten
  exact (hchooses.accept_endTag hname).arrives hlimit

end Arrives

end NotebookTree.Html.Builder
