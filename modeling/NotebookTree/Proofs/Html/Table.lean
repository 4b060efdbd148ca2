import NotebookTree.Proofs.Html.Arrival

/-!
# Tables

A table that is written part by part is read part by part: each opening tag opens its element in
the one around it, and each end tag closes that element. Blank text between the parts stays in the
element in which it stands. Cells and captions hold content of any kind; after these the elements
of the table are open as before, and below the table ordinary elements may have been closed.
-/

namespace NotebookTree.Html

variable {w : Watch} {mode : Mode} {holder : OpenElement} {below stack : List OpenElement}
  {ms : List Mark}

namespace Builder

variable {b : Builder}

/-! ## Between the parts of a table -/

/-- The builder is steady, and the elements of the stack are open but for ordinary ones. -/
structure Nested (w : Watch) (mode : Mode) (stack : List OpenElement) (ms : List Mark)
    (b : Builder) : Prop where
  steady : b.Steady w mode ms
  thinned : Thinned stack b.stack
  free : b.Free stack

namespace Nested

theorem withMode (h : b.Nested w mode stack ms) (mode' : Mode) :
    (b.withMode mode').Nested w mode' stack ms :=
  ⟨{ h.steady with mode_eq := rfl }, h.thinned, { h.free with }⟩

theorem openHtml (h : b.Nested w mode stack ms) {tag : Tag} (htag : tag.IsPlain w) :
    (b.openHtml tag).Nested w mode (⟨b.nextId, ⟨.html, tag.name⟩⟩ :: stack) ms := by
  refine ⟨h.steady.openHtml htag, ?_, h.free.openHtml tag⟩
  rw [stack_openHtml]
  exact h.thinned.cons _

theorem pushMarker (h : b.Nested w mode stack ms) : b.pushMarker.Nested w mode stack ms :=
  ⟨h.steady.pushMarker, h.thinned,
    { h.free with formatting := List.forall_mem_cons.2 ⟨trivial, h.free.formatting⟩ }⟩

theorem appendText (h : b.Nested w mode stack ms) (text : List Char) :
    (b.appendText text).Nested w mode stack (ms ++ text.map .char) := by
  have hsteady := h.steady.appendText text
  obtain ⟨tree, happend⟩ := exists_appendText_eq_withTree (b := b) text
  rw [happend] at hsteady ⊢
  exact ⟨hsteady, h.thinned, { h.free with }⟩

variable {element : OpenElement}

/-- The innermost element is a modal one. -/
theorem exists_stack_eq (h : b.Nested w mode (element :: stack) ms)
    (hmodal : element.isModal = true) : ∃ rest, b.stack = element :: rest ∧ Thinned stack rest :=
  h.thinned.exists_eq_cons hmodal

theorem pop (h : b.Nested w mode (element :: stack) ms) (hmodal : element.isModal = true) :
    b.pop.Nested w mode stack ms := by
  obtain ⟨rest, hstack, hrest⟩ := h.exists_stack_eq hmodal
  refine ⟨h.steady.pop, ?_, ?_⟩
  · rw [Builder.pop, hstack]
    exact hrest
  · have hfree : b.Free stack := h.free.mono fun other hmem _ ↦ List.mem_cons_of_mem _ hmem
    exact { hfree with }

theorem current_eq (h : b.Nested w mode (element :: stack) ms) (hmodal : element.isModal = true) :
    b.current = element := by
  obtain ⟨rest, hstack, -⟩ := h.exists_stack_eq hmodal
  rw [current, hstack]
  rfl

theorem isForeign_eq_false (h : b.Nested w mode (element :: stack) ms)
    (hmodal : element.isModal = true) (hhtml : element.name.vocabulary = .html) (token : Token) :
    ¬b.isForeign token = true := by
  simp [isForeign, h.current_eq hmodal, hhtml]

/-- A tag that is dealt with in the mode at once is accepted so. -/
theorem accept_eq_of_inMode (h : b.Nested w mode (element :: stack) ms)
    (hmodal : element.isModal = true) (hhtml : element.name.vocabulary = .html) {token : Token}
    (htag : token.isTag = true) {b' : Builder} (hstep : b.inMode token = .done b') :
    b.accept token = b' := by
  refine accept_eq h.steady.dropLineFeed_eq token ?_ ?_ ?_
  · rintro rfl
    cases htag
  · rintro rfl
    cases htag
  · rw [if_neg (h.isForeign_eq_false hmodal hhtml _), hstep]

end Nested

/-! ## Blank text -/

/-- Does a blank text stay in the current element, where it is placed before the next tag is
treated? -/
def TakesBlanks (w : Watch) (mode : Mode) (stack : List OpenElement) : Prop :=
  ∀ ⦃ms : List Mark⦄ ⦃b : Builder⦄ ⦃text : List Char⦄, b.Nested w mode stack ms → text ≠ [] →
    (∀ c ∈ text, isTableBlank c = true) →
      (b.accept (.characters text)).reading = .markup ∧
      ∀ {token : Token}, token.isTag = true → ∃ b₁ : Builder,
        b₁.Nested w mode stack (ms ++ text.map .char) ∧
        ∀ b', b₁.inMode token = .done b' → (b.accept (.characters text)).accept token = b'

/-- A token that is treated again, and is dealt with then, is accepted in two steps. -/
theorem accept_eq_of_again (h : b.dropLineFeed = false) (token token₁ : Token)
    (hdoctype : token ≠ .doctype) (hfault : token ≠ .fault) {b₁ b' : Builder}
    (hforeign : ¬b.isForeign token = true) (hstep : b.inMode token = .again b₁ token₁)
    (hforeign₁ : ¬b₁.isForeign token₁ = true) (hstep₁ : b₁.inMode token₁ = .done b') :
    b.accept token = b' := by
  obtain ⟨limit, haccept⟩ := accept_eq_settle h token hdoctype hfault
  rw [haccept, settle, if_neg hforeign, hstep]
  dsimp only
  rw [settle, if_neg hforeign₁, hstep₁]

section Blanks

variable {element : OpenElement}

/-- In a table, a section or a row a blank text waits until the next token. -/
theorem takesBlanks_of_inTable (hmodal : element.isModal = true)
    (helement : element.isHtmlIn ["table", "tbody", "template", "tfoot", "thead", "tr"] = true)
    (hstep : ∀ (b : Builder) (text : List Char), b.mode = mode →
      b.inMode (.characters text) = b.inTable (.characters text)) :
    TakesBlanks w mode (element :: stack) := by
  intro ms b text h hne htext
  have hhtml : element.name.vocabulary = .html := by
    rw [OpenElement.isHtmlIn, Bool.and_eq_true] at helement
    exact beq_iff_eq.1 helement.1
  have hcurrent := h.current_eq hmodal
  -- The builder is the same but for the text that waits.
  have hwaiting (text : List Char) : Nested w .tableText (element :: stack) ms
      { b with outerMode := b.mode, mode := .tableText, tableText := text } :=
    ⟨{ h.steady with mode_eq := rfl }, h.thinned, { h.free with }⟩
  have hplaced : Nested w mode (element :: stack) ms
      { b with outerMode := b.mode, tableText := [] } :=
    ⟨{ h.steady with }, h.thinned, { h.free with }⟩
  have hwaits : b.accept (.characters text) =
      { b with outerMode := b.mode, mode := .tableText, tableText := text } := by
    refine accept_eq_of_again h.steady.dropLineFeed_eq (.characters text) (.characters text)
      (by simp) (by simp) (h.isForeign_eq_false hmodal hhtml _) ?_
      ((hwaiting []).isForeign_eq_false hmodal hhtml _) rfl
    rw [hstep b text h.steady.mode_eq, inTable, hcurrent, if_pos helement]
  rw [hwaits]
  refine ⟨h.steady.reading_eq, fun {token} htag ↦ ⟨_, hplaced.appendText text, fun b' hstep' ↦ ?_⟩⟩
  have hplace : ({ b with
      outerMode := b.mode, mode := .tableText, tableText := text } : Builder).placeTableText =
      ({ b with outerMode := b.mode, tableText := [] } : Builder).appendText text := by
    have hblank : text.all isTableBlank = true := List.all_eq_true.2 htext
    rw [placeTableText]
    dsimp only
    rw [if_neg (by simpa using hne), if_pos hblank]
  refine accept_eq_of_again (hwaiting text).steady.dropLineFeed_eq token token ?_ ?_
    ((hwaiting text).isForeign_eq_false hmodal hhtml _) ?_
    ((hplaced.appendText text).isForeign_eq_false hmodal hhtml _) hstep'
  · rintro rfl
    cases htag
  · rintro rfl
    cases htag
  · rw [← hplace]
    cases token with
    | startTag tag => rfl
    | endTag name => rfl
    | _ => cases htag

/-- In a group of columns a blank text is added to it. -/
theorem takesBlanks_columnGroup (hgroup : element.isHtml "colgroup" = true) :
    TakesBlanks w .columnGroup (element :: stack) := by
  intro ms b text h hne htext
  have hmodal : element.isModal = true :=
    OpenElement.isModal_of_isHtmlIn (OpenElement.isHtml_eq ▸ hgroup) (by decide)
  have hhtml : element.name.vocabulary = .html := by
    rw [OpenElement.isHtml, Bool.and_eq_true] at hgroup
    exact beq_iff_eq.1 hgroup.1
  have haccept : b.accept (.characters text) = b.appendText text := by
    refine accept_characters_eq h.steady.dropLineFeed_eq text ?_
    have hcurrent : b.currentIs "colgroup" = true := by
      rw [currentIs, h.current_eq hmodal]
      exact hgroup
    rw [if_neg (h.isForeign_eq_false hmodal hhtml _), inMode, h.steady.mode_eq]
    dsimp only [inColumnGroup]
    have htake : (text ++ []).takeWhile isTableBlank = text ++ [] :=
      List.takeWhile_append_of_pos htext
    have hdrop : (text ++ []).dropWhile isTableBlank = [] := List.dropWhile_append_of_pos htext
    rw [List.append_nil] at htake hdrop
    rw [if_pos hcurrent, htake, hdrop]
    rfl
  rw [haccept]
  have hnested := h.appendText text
  exact ⟨hnested.steady.reading_eq, fun {token} htag ↦ ⟨_, hnested, fun b' hstep ↦
    hnested.accept_eq_of_inMode hmodal hhtml htag hstep⟩⟩

end Blanks

/-! ## From place to place in a table -/

namespace Arrives

variable {final : Builder} {rest : List Char} {element : OpenElement}

/-- A tag is treated after the blank text that waits before it. -/
theorem exists_inMode {cs : List Char} {token : Token}
    (h : Arrives (Nested w mode (element :: stack)) isTableBlank ms (cs ++ rest) final)
    (hmodal : element.isModal = true) (hhtml : element.name.vocabulary = .html)
    (hblanks : TakesBlanks w mode (element :: stack)) (htoken : Token.Written token cs) :
    ∃ (limit : Nat) (b : Builder), rest.length < limit ∧ b.Nested w mode (element :: stack) ms ∧
      ∀ b', b.inMode token = .done b' → b'.readAll limit rest = final := by
  obtain ⟨limit, b, before, waiting, hready, hwaiting, rfl, hlimit, hread⟩ := h
  obtain ⟨more, hcs⟩ := htoken.exists_eq_cons
  have htag : token.isTag = true := by
    cases htoken <;> rfl
  have hreading : b.reading = .markup := hready.holds.steady.reading_eq
  by_cases hne : waiting = []
  · subst hne
    obtain ⟨limit', hlimit', hread'⟩ := exists_readAll_tag hreading htoken hlimit
    refine ⟨limit', _, hlimit', by simpa using hready.holds, fun b' hstep ↦ ?_⟩
    have hnotText (more : List Char) : token ≠ .characters ('\n' :: more) := by
      rintro rfl
      cases htag
    have haccept := hready.accept_eq fun more heq ↦ absurd heq (hnotText more)
    rw [← hready.holds.accept_eq_of_inMode hmodal hhtml htag hstep, ← haccept, ← hread']
    exact hread
  · have hnull : '\x00' ∉ waiting := fun hmem ↦ absurd (hwaiting _ hmem) (by decide)
    obtain ⟨limit₁, hlimit₁, hread₁⟩ := hready.exists_readAll_escapeText hreading hnull hne
      (.inr ⟨more ++ rest, congrArg (· ++ rest) hcs⟩) hlimit
    obtain ⟨hreading₁, htreats⟩ := hblanks hready.holds hne hwaiting
    obtain ⟨b₁, hnested, hstep₁⟩ := htreats htag
    obtain ⟨limit₂, hlimit₂, hread₂⟩ := exists_readAll_tag hreading₁ htoken hlimit₁
    refine ⟨limit₂, b₁, hlimit₂, hnested, fun b' hstep ↦ ?_⟩
    rw [← hstep₁ b' hstep, ← hread₂, ← hread₁, hread]

/-- A part is opened in the one around it. -/
theorem openPart {tag : Tag} {opening : List Char}
    (h : Arrives (Nested w mode (element :: stack)) isTableBlank ms (opening ++ rest) final)
    (hmodal : element.isModal = true) (hhtml : element.name.vocabulary = .html)
    (hblanks : TakesBlanks w mode (element :: stack))
    (hopening : Token.Written (.startTag tag) opening) {mode' : Mode}
    (hstep : ∀ b : Builder, b.Nested w mode (element :: stack) ms →
      ∃ b', b.inMode (.startTag tag) = .done b' ∧
        b'.Nested w mode' (⟨b.nextId, ⟨.html, tag.name⟩⟩ :: element :: stack) ms) :
    ∃ id, Arrives (Nested w mode' (⟨id, ⟨.html, tag.name⟩⟩ :: element :: stack)) isTableBlank ms
      rest final := by
  obtain ⟨limit, b, hlimit, hnested, hmore⟩ := h.exists_inMode hmodal hhtml hblanks hopening
  obtain ⟨b', hdone, hopened⟩ := hstep b hnested
  rw [← hmore b' hdone]
  exact ⟨b.nextId, .of_holds hopened hopened.steady.dropLineFeed_eq hlimit⟩

/-- A part is closed. -/
theorem closePart {name : String} {closing : List Char}
    (h : Arrives (Nested w mode (element :: stack)) isTableBlank ms (closing ++ rest) final)
    (hmodal : element.isModal = true) (hhtml : element.name.vocabulary = .html)
    (hblanks : TakesBlanks w mode (element :: stack))
    (hclosing : Token.Written (.endTag name) closing) {mode' : Mode}
    (hstep : ∀ b : Builder, b.Nested w mode (element :: stack) ms →
      b.inMode (.endTag name) = .done (b.pop.withMode mode')) :
    Arrives (Nested w mode' stack) isTableBlank ms rest final := by
  obtain ⟨limit, b, hlimit, hnested, hmore⟩ := h.exists_inMode hmodal hhtml hblanks hclosing
  have hclosed := (hnested.pop hmodal).withMode mode'
  rw [← hmore _ (hstep b hnested)]
  exact .of_holds hclosed hclosed.steady.dropLineFeed_eq hlimit

end Arrives

/-! ## The parts -/

section Parts

variable {tag : Tag} {element : OpenElement}

theorem Nested.popBackTo_eq_self (h : b.Nested w mode (element :: stack) ms) {tags : List String}
    (helement : element.isHtmlIn tags = true) (hmodal : element.isModal = true) :
    b.popBackTo tags = b := by
  obtain ⟨rest, hstack, -⟩ := h.exists_stack_eq hmodal
  have hdrop : b.stack.dropWhile (!·.isHtmlIn tags) = b.stack := by
    rw [hstack, List.dropWhile_cons_of_neg (by simp [helement])]
  rw [popBackTo, popWhile, hdrop]

theorem Nested.inScope_eq_true (h : b.Nested w mode (element :: stack) ms) {scope : Scope}
    {name : String} (helement : element.isHtml name = true) (hmodal : element.isModal = true) :
    b.inScope scope name = true := by
  obtain ⟨rest, hstack, -⟩ := h.exists_stack_eq hmodal
  rw [inScope, inScopeWhere, hstack, findInScope, helement, Bool.true_or]

/-- The elements that stand in a table. -/
def partTags : List String :=
  ["caption", "colgroup", "tbody", "td", "tfoot", "th", "thead", "tr"]

theorem isPlain_of_mem_partTags (h : tag.name ∈ partTags) : tag.IsPlain w :=
  ElementName.isPlain_html ((show ∀ name ∈ partTags, name ≠ "template" by decide) _ h)
    ((show ∀ name ∈ partTags, name ≠ standInTag by decide) _ h)

namespace Nested

/-- A caption, a group of columns or a section is opened in a table. -/
theorem exists_inMode_startTag_table (h : b.Nested w .table (element :: stack) ms)
    (helement : element.isHtml "table" = true) {mode' : Mode}
    (hname : (tag.name = "caption" ∧ mode' = .caption) ∨
      (tag.name = "colgroup" ∧ mode' = .columnGroup) ∨
      (tag.name ∈ ["tbody", "tfoot", "thead"] ∧ mode' = .tableBody)) :
    ∃ b', b.inMode (.startTag tag) = .done b' ∧
      b'.Nested w mode' (⟨b.nextId, ⟨.html, tag.name⟩⟩ :: element :: stack) ms := by
  have htable := OpenElement.isHtml_eq ▸ helement
  have hself : b.backToTable = b :=
    h.popBackTo_eq_self (OpenElement.isHtmlIn_of_subset htable (by decide))
      (OpenElement.isModal_of_isHtmlIn htable (by decide))
  rw [inMode, h.steady.mode_eq]
  dsimp only [inTable]
  rw [hself]
  rcases hname with ⟨hname, rfl⟩ | ⟨hname, rfl⟩ | ⟨hname, rfl⟩
  · have htag : tag.IsPlain w := isPlain_of_mem_partTags (hname ▸ by decide)
    rw [if_pos hname]
    exact ⟨_, rfl, (h.pushMarker.openHtml htag).withMode .caption⟩
  · have htag : tag.IsPlain w := isPlain_of_mem_partTags (hname ▸ by decide)
    rw [if_neg (by rw [hname]; decide), if_pos hname]
    exact ⟨_, rfl, (h.openHtml htag).withMode .columnGroup⟩
  · have hplain : ∀ name ∈ ["tbody", "tfoot", "thead"],
        name ∈ partTags ∧ name ≠ "caption" ∧ name ≠ "colgroup" ∧ name ≠ "col" := by decide
    obtain ⟨hpart, hcaption, hcolgroup, hcol⟩ := hplain _ hname
    rw [if_neg hcaption, if_neg hcolgroup, if_neg hcol, if_pos hname]
    exact ⟨_, rfl, (h.openHtml (isPlain_of_mem_partTags hpart)).withMode .tableBody⟩

/-- A row is opened in a section. -/
theorem exists_inMode_startTag_tableBody (h : b.Nested w .tableBody (element :: stack) ms)
    (helement : element.isHtmlIn ["tbody", "tfoot", "thead"] = true) (hname : tag.name = "tr") :
    ∃ b', b.inMode (.startTag tag) = .done b' ∧
      b'.Nested w .row (⟨b.nextId, ⟨.html, tag.name⟩⟩ :: element :: stack) ms := by
  have hself : b.backToSection = b :=
    h.popBackTo_eq_self (OpenElement.isHtmlIn_of_subset helement (by decide))
      (OpenElement.isModal_of_isHtmlIn helement (by decide))
  rw [inMode, h.steady.mode_eq]
  dsimp only [inTableBody]
  rw [hself, if_pos hname]
  exact ⟨_, rfl, (h.openHtml (isPlain_of_mem_partTags (hname ▸ by decide))).withMode .row⟩

/-- A cell is opened in a row. -/
theorem exists_inMode_startTag_row (h : b.Nested w .row (element :: stack) ms)
    (helement : element.isHtml "tr" = true) (hname : tag.name ∈ ["th", "td"]) :
    ∃ b', b.inMode (.startTag tag) = .done b' ∧
      b'.Nested w .cell (⟨b.nextId, ⟨.html, tag.name⟩⟩ :: element :: stack) ms := by
  have hrow := OpenElement.isHtml_eq ▸ helement
  have hself : b.backToRow = b :=
    h.popBackTo_eq_self (OpenElement.isHtmlIn_of_subset hrow (by decide))
      (OpenElement.isModal_of_isHtmlIn hrow (by decide))
  rw [inMode, h.steady.mode_eq]
  dsimp only [inRow]
  rw [hself, if_pos hname]
  have hpart : tag.name ∈ partTags :=
    (show ∀ name ∈ ["th", "td"], name ∈ partTags by decide) _ hname
  exact ⟨_, rfl, ((h.openHtml (isPlain_of_mem_partTags hpart)).withMode .cell).pushMarker⟩

/-- The end tag of a section closes it. -/
theorem inMode_endTag_tableBody {id : Nat} {name : String}
    (h : b.Nested w .tableBody (⟨id, ⟨.html, name⟩⟩ :: stack) ms)
    (hname : name ∈ ["tbody", "tfoot", "thead"]) :
    b.inMode (.endTag name) = .done (b.pop.withMode .table) := by
  have helement : OpenElement.isHtmlIn ⟨id, ⟨.html, name⟩⟩ ["tbody", "tfoot", "thead"] = true := by
    rw [OpenElement.isHtmlIn, decide_eq_true hname]
    rfl
  have hmodal := OpenElement.isModal_of_isHtmlIn helement (by decide)
  have hopen : b.inScope tableScope name = true :=
    h.inScope_eq_true (by simp [OpenElement.isHtml]) hmodal
  have hself : b.backToSection = b :=
    h.popBackTo_eq_self (OpenElement.isHtmlIn_of_subset helement (by decide)) hmodal
  rw [inMode, h.steady.mode_eq]
  dsimp only [inTableBody]
  rw [if_pos hname, if_pos hopen, hself]

/-- The end tag of a row closes it. -/
theorem inMode_endTag_row {id : Nat} (h : b.Nested w .row (⟨id, ⟨.html, "tr"⟩⟩ :: stack) ms) :
    b.inMode (.endTag "tr") = .done (b.pop.withMode .tableBody) := by
  have hmodal : OpenElement.isModal ⟨id, ⟨.html, "tr"⟩⟩ = true :=
    OpenElement.isModal_mk (by decide)
  have hopen : b.inScope tableScope "tr" = true := h.inScope_eq_true rfl hmodal
  have hself : b.backToRow = b := h.popBackTo_eq_self rfl hmodal
  rw [inMode, h.steady.mode_eq]
  dsimp only [inRow]
  rw [if_pos rfl, if_pos hopen, hself]

/-- The end tag of a group of columns closes it. -/
theorem inMode_endTag_columnGroup {id : Nat}
    (h : b.Nested w .columnGroup (⟨id, ⟨.html, "colgroup"⟩⟩ :: stack) ms) :
    b.inMode (.endTag "colgroup") = .done (b.pop.withMode .table) := by
  have hmodal : OpenElement.isModal ⟨id, ⟨.html, "colgroup"⟩⟩ = true :=
    OpenElement.isModal_mk (by decide)
  have hcurrent : b.currentIs "colgroup" = true := by
    rw [currentIs, h.current_eq hmodal]
    rfl
  rw [inMode, h.steady.mode_eq]
  dsimp only [inColumnGroup]
  rw [if_pos rfl, if_pos hcurrent]

/-- A column is added to its group. -/
theorem inMode_startTag_col (h : b.Nested w .columnGroup stack ms) (hname : tag.name = "col") :
    b.inMode (.startTag tag) = .done (b.addHtml tag) := by
  rw [inMode, h.steady.mode_eq]
  dsimp only [inColumnGroup]
  rw [if_neg (by rw [hname]; decide), if_pos hname]

theorem addHtml (h : b.Nested w mode stack ms) (htag : tag.IsPlain w) :
    (b.addHtml tag).Nested w mode stack ms := by
  have hsteady := h.steady.addHtml htag
  obtain ⟨tree, hinsert⟩ := exists_insertElement_eq_withTree (b := b) false ⟨.html, tag.name⟩
    (htmlAttributes tag)
  rw [Builder.addHtml, hinsert] at hsteady ⊢
  exact ⟨hsteady, h.thinned, h.free.grow tree (Nat.le_add_right _ 2) _⟩

end Nested

end Parts

/-! ## Blank text in the parts -/

section PartNames

variable {id : Nat} {name : String}

theorem takesBlanks_table : TakesBlanks w .table (⟨id, ⟨.html, "table"⟩⟩ :: stack) :=
  takesBlanks_of_inTable (OpenElement.isModal_mk (by decide)) rfl fun b text hmode ↦ by
    rw [inMode, hmode]

theorem takesBlanks_tableBody (hname : name ∈ ["tbody", "tfoot", "thead"]) :
    TakesBlanks w .tableBody (⟨id, ⟨.html, name⟩⟩ :: stack) := by
  have helement : OpenElement.isHtmlIn ⟨id, ⟨.html, name⟩⟩ ["tbody", "tfoot", "thead"] = true :=
    Bool.and_eq_true_iff.2 ⟨rfl, decide_eq_true hname⟩
  refine takesBlanks_of_inTable (OpenElement.isModal_of_isHtmlIn helement (by decide))
    (OpenElement.isHtmlIn_of_subset helement (by decide)) fun b text hmode ↦ ?_
  rw [inMode, hmode]
  rfl

theorem takesBlanks_row : TakesBlanks w .row (⟨id, ⟨.html, "tr"⟩⟩ :: stack) :=
  takesBlanks_of_inTable (OpenElement.isModal_mk (by decide)) rfl fun b text hmode ↦ by
    rw [inMode, hmode]
    rfl

/-! ## Columns -/

namespace Arrives

variable {final : Builder} {cs rest : List Char} {tag : Tag}

theorem columnStart
    (h : Arrives (Nested w .columnGroup (⟨id, ⟨.html, "colgroup"⟩⟩ :: stack)) isTableBlank ms
      (cs ++ rest) final)
    (hname : tag.name = "col") (hwritten : Token.Written (.startTag tag) cs) :
    Arrives (Nested w .columnGroup (⟨id, ⟨.html, "colgroup"⟩⟩ :: stack)) isTableBlank ms rest
      final := by
  obtain ⟨limit, b, hlimit, hnested, hmore⟩ := h.exists_inMode
    (OpenElement.isModal_mk (by decide)) rfl (takesBlanks_columnGroup rfl) hwritten
  have hplain : tag.IsPlain w :=
    ElementName.isPlain_html (hname ▸ by decide) (hname ▸ by decide)
  have hadded := hnested.addHtml hplain
  rw [← hmore _ (hnested.inMode_startTag_col hname)]
  exact .of_holds hadded hadded.steady.dropLineFeed_eq hlimit

/-- The end tag of a column is passed over. -/
theorem columnEnd
    (h : Arrives (Nested w .columnGroup (⟨id, ⟨.html, "colgroup"⟩⟩ :: stack)) isTableBlank ms
      (cs ++ rest) final)
    (hwritten : Token.Written (.endTag "col") cs) :
    Arrives (Nested w .columnGroup (⟨id, ⟨.html, "colgroup"⟩⟩ :: stack)) isTableBlank ms rest
      final := by
  obtain ⟨limit, b, hlimit, hnested, hmore⟩ := h.exists_inMode
    (OpenElement.isModal_mk (by decide)) rfl (takesBlanks_columnGroup rfl) hwritten
  have hpassed : b.inMode (.endTag "col") = .done b := by
    rw [inMode, hnested.steady.mode_eq]
    rfl
  rw [← hmore b hpassed]
  exact .of_holds hnested hnested.steady.dropLineFeed_eq hlimit

end Arrives

end PartNames

end Builder

end NotebookTree.Html
