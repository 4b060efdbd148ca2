import NotebookTree.Proofs.Html.Tags
import NotebookTree.Proofs.Html.Writing

/-!
# The path of open elements

Containers are elements of HTML that may hold each other to any depth: opening one closes nothing,
and its end tag closes that one alone. As long as all open elements are containers, the tree of a
builder is the path from its root to the innermost of them, with what each of them holds so far.
An opening tag makes the path one element longer, an end tag one shorter, and a text is added to the
innermost element.
-/

namespace NotebookTree.Html

open Builder (blockTags phraseTags impliedTags specialTags)

/-! ## Paths -/

/-- An open element with what it holds so far, the newest first. -/
structure Level where
  element : OpenElement
  attributes : List Attribute
  children : List Dom

namespace Level

/-- The tree of an open element. -/
def dom (level : Level) : Dom :=
  .element level.element.id level.element.name level.attributes level.children

/-- An open element that holds one node more. -/
def hold (level : Level) (node : Dom) : Level :=
  { level with children := Dom.push node level.children }

end Level

namespace Dom

/-- A tree as the newest child of the first of some open elements, each of which is the newest child
of the next. -/
def enclose (inner : Dom) (outer : List Level) : Dom :=
  outer.foldl (fun inner level ↦ Level.dom { level with children := inner :: level.children })
    inner

/-- What changes in the enclosed tree changes nothing around it. -/
theorem update?_enclose {id : Nat} {change : List Dom → List Dom} {inner inner' : Dom}
    {outer : List Level} (h : update? id change inner = some inner')
    (hfresh : id ∉ outer.map (·.element.id)) :
    update? id change (inner.enclose outer) = some (inner'.enclose outer) := by
  induction outer generalizing inner inner' with
  | nil => exact h
  | cons level outer ih =>
    rw [List.map_cons, List.mem_cons, not_or] at hfresh
    refine ih ?_ hfresh.2
    show update? id change (.element _ _ _ (inner :: level.children)) = _
    rw [update?, if_neg (Ne.symm hfresh.1), updateFirst?, h]
    rfl

end Dom

/-! ## Containers -/

/-- The elements that may hold each other to any depth. -/
def containerTags : List String :=
  blockTags.erase "p" ++ ["pre", "listing"] ++ phraseTags

/-- Is it a container, or the wrapper of the fragment? -/
def OpenElement.IsContainer (element : OpenElement) : Prop :=
  element.name.vocabulary = .html ∧ element.name.name ∈ "html" :: containerTags

namespace OpenElement.IsContainer

variable {element : OpenElement} (h : element.IsContainer)
include h

theorem isHtmlIn_eq_false {tags : List String}
    (htags : ∀ tag ∈ "html" :: containerTags, tag ∉ tags) : element.isHtmlIn tags = false := by
  rw [isHtmlIn, Bool.and_eq_false_iff, decide_eq_false_iff_not]
  exact .inr (htags _ h.2)

theorem isHtml_eq_false {tag : String} (htag : tag ∉ "html" :: containerTags) :
    element.isHtml tag = false := by
  rw [isHtml, Bool.and_eq_false_iff]
  exact .inr (beq_eq_false_iff_ne.2 fun heq ↦ htag (heq ▸ h.2))

theorem isHtml_self : element.isHtml element.name.name = true := by
  rw [isHtml, h.1, beq_self_eq_true, beq_self_eq_true]
  rfl

end OpenElement.IsContainer

namespace FormattingEntry

/-- The open element of an entry. -/
def element? : FormattingEntry → Option OpenElement
  | marker => none
  | element id tag => some ⟨id, ⟨.html, tag.name⟩⟩

theorem eq_element_of_element?_eq_some {entry : FormattingEntry} {element : OpenElement}
    (h : entry.element? = some element) :
    ∃ tag, entry = .element element.id tag ∧ element.name = ⟨.html, tag.name⟩ := by
  cases entry with
  | marker => cases h
  | element id tag =>
    cases h
    exact ⟨tag, rfl, rfl⟩

end FormattingEntry

namespace Builder

/-- The builder reads markup in a body, and its tree is the path of its open elements, which are
containers. Its formatting elements are among them. -/
structure Path (level : Level) (outer : List Level) (b : Builder) : Prop where
  tree_eq : b.tree = level.dom.enclose outer
  stack_eq : b.stack = (level :: outer).map (·.element)
  nodup : ((level :: outer).map (·.element.id)).Nodup
  lt_nextId : ∀ open_ ∈ level :: outer, open_.element.id < b.nextId
  isContainer : ∀ open_ ∈ level :: outer, open_.element.IsContainer
  formatting_sublist : (b.formatting.map (·.element?)).Sublist (b.stack.map some)
  formatting_phrase : ∀ entry ∈ b.formatting, ∀ element, entry.element? = some element →
    element.name.name ∈ phraseTags
  mode_eq : b.mode = .body
  reading_eq : b.reading = .markup
  fostering_eq : b.fostering = false
  dropLineFeed_eq : b.dropLineFeed = false

variable {level inner : Level} {outer : List Level} {b : Builder}

/-! ## Tags of containers -/

theorem bodyStart_block {tag : Tag} (h : tag.name ∈ blockTags) :
    b.bodyStart tag = b.closeOpenParagraph.openHtml tag := by
  have hnot : ∀ name ∈ blockTags, name ∉ headTags ∧ name ∉ ["html", "body", "frameset", "caption",
      "col", "colgroup", "frame", "head", "tbody", "td", "tfoot", "th", "thead", "tr"] := by
    decide
  obtain ⟨hhead, hignored⟩ := hnot _ h
  simp only [bodyStart, if_neg hhead, if_neg hignored, if_pos h]

theorem bodyStart_pre {tag : Tag} (h : tag.name ∈ ["pre", "listing"]) :
    b.bodyStart tag = { b.closeOpenParagraph.openHtml tag with dropLineFeed := true } := by
  obtain ⟨name, attributes, selfClosing⟩ := tag
  simp only [List.mem_cons, List.not_mem_nil, or_false] at h
  rcases h with rfl | rfl <;> rfl

theorem bodyStart_phrase {tag : Tag} (h : tag.name ∈ phraseTags) :
    b.bodyStart tag = b.reopenFormatting.openFormatting tag := by
  obtain ⟨name, attributes, selfClosing⟩ := tag
  simp only [phraseTags, List.mem_cons, List.not_mem_nil, or_false] at h
  rcases h with rfl | rfl | rfl | rfl | rfl | rfl | rfl | rfl | rfl | rfl | rfl | rfl <;> rfl

theorem bodyEnd_block {name : String} (h : name ∈ blockTags.erase "p" ++ ["pre", "listing"]) :
    b.bodyEnd name = b.closeInScope defaultScope name := by
  have hend : ∀ name ∈ blockTags.erase "p" ++ ["pre", "listing"],
      name ≠ "template" ∧ name ∉ ["body", "html"] ∧ name ∈ blockEndTags := by
    decide
  obtain ⟨htemplate, hbody, hblock⟩ := hend name h
  rw [bodyEnd, if_neg htemplate, if_neg hbody, if_pos hblock]

theorem bodyEnd_phrase {name : String} (h : name ∈ phraseTags) :
    b.bodyEnd name = b.closeFormatting name := by
  simp only [phraseTags, List.mem_cons, List.not_mem_nil, or_false] at h
  rcases h with rfl | rfl | rfl | rfl | rfl | rfl | rfl | rfl | rfl | rfl | rfl | rfl <;> rfl

namespace Path

/-! ## The open elements -/

theorem current_eq (h : b.Path level outer) : b.current = level.element := by
  rw [current, h.stack_eq]
  rfl

theorem mem_stack (h : b.Path level outer) {element : OpenElement} (hmem : element ∈ b.stack) :
    element.IsContainer := by
  rw [h.stack_eq] at hmem
  obtain ⟨held, hheld, rfl⟩ := List.mem_map.1 hmem
  exact h.isContainer held hheld

theorem isContainer_level (h : b.Path level outer) : level.element.IsContainer :=
  h.isContainer level List.mem_cons_self

/-- No elements of other names are found in the stack. -/
theorem findInScope_eq_false {stack : List OpenElement} (scope : Scope)
    {wanted : OpenElement → Bool} (h : ∀ element ∈ stack, wanted element = false) :
    findInScope scope wanted stack = false := by
  induction stack with
  | nil => rfl
  | cons element below ih =>
    obtain ⟨helement, hbelow⟩ := List.forall_mem_cons.1 h
    rw [findInScope, helement, ih hbelow, Bool.and_false, Bool.or_false]

theorem closeOpenParagraph_eq (h : b.Path level outer) : b.closeOpenParagraph = b := by
  have hnone : b.inScope buttonScope "p" = false :=
    findInScope_eq_false _ fun element hmem ↦ (h.mem_stack hmem).isHtml_eq_false (by decide)
  rw [closeOpenParagraph, hnone]
  rfl

theorem closeImplied_eq (h : b.Path level outer) : b.closeImplied = b := by
  have hcurrent : level.element.isHtmlIn impliedTags = false :=
    h.isContainer_level.isHtmlIn_eq_false (by decide)
  have hdrop : b.stack.dropWhile (fun element ↦
      element.isHtmlIn impliedTags && !element.isHtmlIn []) = b.stack := by
    rw [h.stack_eq, List.map_cons, List.dropWhile_cons_of_neg (by simp [hcurrent])]
  rw [closeImplied, closeImpliedExcept, popWhile, hdrop]

theorem not_isClosedFormatting (h : b.Path level outer) {entry : FormattingEntry}
    (hmem : entry ∈ b.formatting) : b.isClosedFormatting entry = false := by
  have hsome : entry.element? ∈ b.stack.map some :=
    h.formatting_sublist.subset (List.mem_map_of_mem hmem)
  obtain ⟨element, helement, heq⟩ := List.mem_map.1 hsome
  obtain ⟨tag, rfl, -⟩ := FormattingEntry.eq_element_of_element?_eq_some heq.symm
  have hany : b.stack.any (·.id == element.id) = true :=
    List.any_eq_true.2 ⟨element, helement, beq_self_eq_true _⟩
  show (!b.stack.any (·.id == element.id)) = false
  rw [hany]
  rfl

/-- No formatting elements have to be opened again. -/
theorem reopenFormatting_eq (h : b.Path level outer) : b.reopenFormatting = b := by
  have hclosed : b.formatting.takeWhile b.isClosedFormatting = [] := by
    cases hformatting : b.formatting with
    | nil => rfl
    | cons entry rest =>
      have hentry := h.not_isClosedFormatting (hformatting ▸ List.mem_cons_self)
      rw [List.takeWhile_cons_of_neg (by simp [hentry])]
  rw [reopenFormatting, hclosed]
  rfl

/-! ## Inserting nodes -/

theorem insertAt_eq (h : b.Path level outer) (node : Dom) :
    b.insertAt (b.placeIn b.current) node =
      { b with tree := (level.hold node).dom.enclose outer } := by
  have htemplate : level.element.isHtml "template" = false :=
    h.isContainer_level.isHtml_eq_false (by decide)
  have hplace : b.placeIn b.current = .last level.element.id := by
    rw [placeIn, h.fostering_eq, h.current_eq, Place.inside, htemplate]
    rfl
  have hfresh := (List.nodup_cons.1 h.nodup).1
  have hupdate : b.tree.update? level.element.id (Dom.push node) =
      some ((level.hold node).dom.enclose outer) := by
    rw [h.tree_eq]
    refine Dom.update?_enclose ?_ hfresh
    rw [Level.dom, Dom.update?, if_pos rfl]
    rfl
  simp only [hplace, insertAt, hupdate, Option.getD_some]

/-- The innermost element may hold one node more. -/
theorem hold (h : b.Path level outer) (node : Dom) :
    Path (level.hold node) outer { b with tree := (level.hold node).dom.enclose outer } where
  tree_eq := rfl
  stack_eq := h.stack_eq
  nodup := h.nodup
  lt_nextId := List.forall_mem_cons.2 (List.forall_mem_cons.1 h.lt_nextId)
  isContainer := List.forall_mem_cons.2 (List.forall_mem_cons.1 h.isContainer)
  formatting_sublist := h.formatting_sublist
  formatting_phrase := h.formatting_phrase
  mode_eq := h.mode_eq
  reading_eq := h.reading_eq
  fostering_eq := h.fostering_eq
  dropLineFeed_eq := h.dropLineFeed_eq

theorem appendText (h : b.Path level outer) {text : List Char} (hne : text ≠ []) :
    (b.appendText text).Path (level.hold (.text text)) outer := by
  rw [Builder.appendText, if_neg (by simpa using hne), h.insertAt_eq]
  exact h.hold (.text text)

theorem insertElement_eq (h : b.Path level outer) {tag : String} (htag : tag ∈ containerTags)
    (attributes : List Attribute) :
    b.insertElement true ⟨.html, tag⟩ attributes =
      { b with
        tree := (level.hold (.element b.nextId ⟨.html, tag⟩ attributes [])).dom.enclose outer
        nextId := b.nextId + 2
        stack := ⟨b.nextId, ⟨.html, tag⟩⟩ :: b.stack } := by
  have hname : (⟨.html, tag⟩ : ElementName) ≠ ⟨.html, "template"⟩ := by
    intro heq
    obtain rfl : tag = "template" := congrArg ElementName.name heq
    revert htag
    decide
  rw [Builder.insertElement, if_neg hname, h.insertAt_eq]
  rfl

/-- A container that is opened makes the path one element longer. -/
theorem insertElement (h : b.Path level outer) {tag : String} (htag : tag ∈ containerTags)
    (attributes : List Attribute) {formatting : List FormattingEntry}
    (hsublist : (formatting.map (·.element?)).Sublist
      ((⟨b.nextId, ⟨.html, tag⟩⟩ :: b.stack).map some))
    (hphrase : ∀ entry ∈ formatting, ∀ element, entry.element? = some element →
      element.name.name ∈ phraseTags) :
    Path ⟨⟨b.nextId, ⟨.html, tag⟩⟩, attributes, []⟩ (level :: outer)
      { b.insertElement true ⟨.html, tag⟩ attributes with formatting } := by
  rw [h.insertElement_eq htag]
  exact {
    tree_eq := rfl
    stack_eq := congrArg (_ :: ·) h.stack_eq
    nodup := by
      refine List.nodup_cons.2 ⟨fun hmem ↦ ?_, h.nodup⟩
      obtain ⟨held, hheld, heq⟩ := List.mem_map.1 hmem
      exact Nat.ne_of_lt (h.lt_nextId held hheld) heq
    lt_nextId := List.forall_mem_cons.2 ⟨Nat.lt_add_of_pos_right (by decide),
      fun held hmem ↦ Nat.lt_add_right 2 (h.lt_nextId held hmem)⟩
    isContainer := List.forall_mem_cons.2 ⟨⟨rfl, List.mem_cons_of_mem _ htag⟩, h.isContainer⟩
    formatting_sublist := hsublist
    formatting_phrase := hphrase
    mode_eq := h.mode_eq
    reading_eq := h.reading_eq
    fostering_eq := h.fostering_eq
    dropLineFeed_eq := h.dropLineFeed_eq }

theorem openHtml (h : b.Path level outer) {tag : Tag} (htag : tag.name ∈ containerTags) :
    (b.openHtml tag).Path ⟨⟨b.nextId, ⟨.html, tag.name⟩⟩, htmlAttributes tag, []⟩
      (level :: outer) := by
  have hopen := h.insertElement htag (htmlAttributes tag) (h.formatting_sublist.cons _)
    h.formatting_phrase
  rw [h.insertElement_eq htag] at hopen
  rwa [Builder.openHtml, h.insertElement_eq htag]

/-! ## Formatting elements -/

theorem removeFormatting (h : b.Path level outer) (id : Nat) :
    (b.removeFormatting id).Path level outer :=
  { h with
    formatting_sublist := (List.filter_sublist.map _).trans h.formatting_sublist
    formatting_phrase := fun entry hmem ↦ h.formatting_phrase entry (List.mem_filter.1 hmem).1 }

theorem openFormatting (h : b.Path level outer) {tag : Tag} (htag : tag.name ∈ phraseTags) :
    ∃ id, (b.openFormatting tag).Path
      ⟨⟨id, ⟨.html, tag.name⟩⟩, htmlAttributes tag, []⟩ (level :: outer) := by
  have hcontainer : tag.name ∈ containerTags := List.mem_append_right _ htag
  have hopen {b' : Builder} (h' : b'.Path level outer) :
      Path ⟨⟨b'.nextId, ⟨.html, tag.name⟩⟩, htmlAttributes tag, []⟩ (level :: outer)
        { b'.openHtml tag with
          formatting := .element b'.nextId tag :: (b'.openHtml tag).formatting } := by
    have hsame : (b'.openHtml tag).formatting = b'.formatting := by
      rw [Builder.openHtml, h'.insertElement_eq hcontainer]
    have hsublist := h'.formatting_sublist.cons_cons
      (some (⟨b'.nextId, ⟨.html, tag.name⟩⟩ : OpenElement))
    rw [hsame]
    refine h'.insertElement hcontainer (htmlAttributes tag) hsublist
      (List.forall_mem_cons.2 ⟨?_, h'.formatting_phrase⟩)
    rintro element heq
    cases heq
    exact htag
  unfold Builder.openFormatting
  refine ⟨_, hopen ?_⟩
  split
  · split
    · exact h.removeFormatting _
    · exact h
  · exact h

/-! ## Closing elements -/

/-- Closing the innermost element makes the path one element shorter. -/
theorem closed (h : b.Path inner (level :: outer)) {formatting : List FormattingEntry}
    (hsublist : (formatting.map (·.element?)).Sublist (b.stack.tail.map some))
    (hsubset : formatting ⊆ b.formatting) :
    Path (level.hold inner.dom) outer { b with stack := b.stack.tail, formatting } where
  tree_eq := h.tree_eq
  stack_eq := by
    rw [h.stack_eq]
    rfl
  nodup := (List.nodup_cons.1 h.nodup).2
  lt_nextId := List.forall_mem_cons.2
    (List.forall_mem_cons.1 (List.forall_mem_cons.1 h.lt_nextId).2)
  isContainer := List.forall_mem_cons.2
    (List.forall_mem_cons.1 (List.forall_mem_cons.1 h.isContainer).2)
  formatting_sublist := hsublist
  formatting_phrase := fun entry hmem ↦ h.formatting_phrase entry (hsubset hmem)
  mode_eq := h.mode_eq
  reading_eq := h.reading_eq
  fostering_eq := h.fostering_eq
  dropLineFeed_eq := h.dropLineFeed_eq

/-- Either the latest formatting element is the innermost open one, or it stands below that. -/
theorem formatting_cases (h : b.Path inner outer) :
    (b.formatting.map (·.element?)).Sublist (b.stack.tail.map some) ∨
    ∃ tag rest, b.formatting = .element inner.element.id tag :: rest ∧
      inner.element.name = ⟨.html, tag.name⟩ ∧ tag.name ∈ phraseTags ∧
      (rest.map (·.element?)).Sublist (b.stack.tail.map some) := by
  have hsublist := h.formatting_sublist
  rw [h.stack_eq, List.map_cons, List.map_cons] at hsublist
  rw [h.stack_eq, List.map_cons, List.tail_cons]
  cases hformatting : b.formatting with
  | nil => exact .inl (List.nil_sublist _)
  | cons entry rest =>
    rw [hformatting, List.map_cons] at hsublist
    rcases List.cons_sublist_cons'.1 hsublist with hbelow | ⟨heq, hrest⟩
    · exact .inl hbelow
    · obtain ⟨tag, rfl, hname⟩ := FormattingEntry.eq_element_of_element?_eq_some heq
      refine .inr ⟨tag, rest, rfl, hname, ?_, hrest⟩
      exact h.formatting_phrase _ (hformatting ▸ List.mem_cons_self) _ rfl

theorem pop (h : b.Path inner (level :: outer)) (hblock : inner.element.name.name ∉ phraseTags) :
    b.pop.Path (level.hold inner.dom) outer := by
  rcases h.formatting_cases with hsublist | ⟨tag, rest, -, hname, hphrase, -⟩
  · exact h.closed hsublist (List.Subset.refl _)
  · exact absurd (hname ▸ hphrase) hblock

theorem closeInScope (h : b.Path inner (level :: outer))
    (hblock : inner.element.name.name ∉ phraseTags) (scope : Scope) :
    (b.closeInScope scope inner.element.name.name).Path (level.hold inner.dom) outer := by
  have hself := h.isContainer_level.isHtml_self
  have hscope : b.inScope scope inner.element.name.name = true := by
    rw [inScope, inScopeWhere, h.stack_eq, List.map_cons, findInScope, hself, Bool.true_or]
  have hdrop : b.stack.dropWhile (!·.isHtml inner.element.name.name) = b.stack := by
    rw [h.stack_eq, List.map_cons, List.dropWhile_cons_of_neg (by simp [hself])]
  have hpop : b.popTag inner.element.name.name = b.pop := by
    rw [popTag, popThrough, hdrop]
    rfl
  rw [Builder.closeInScope, if_pos hscope, h.closeImplied_eq, hpop]
  exact h.pop hblock

/-- The end of a formatting element with nothing open inside it closes that one. -/
theorem adoptOnce_eq (h : b.Path inner outer) {tag : Tag} {rest : List FormattingEntry}
    (hformatting : b.formatting = .element inner.element.id tag :: rest) :
    b.adoptOnce tag.name =
      ({ b.removeFormatting inner.element.id with stack := b.stack.tail }, false) := by
  have hrecent : b.recentFormatting = .element inner.element.id tag ::
      rest.takeWhile fun entry ↦ entry.id?.isSome := by
    rw [recentFormatting, hformatting, List.takeWhile_cons_of_pos (by rfl)]
  have hstack : b.stack = inner.element :: outer.map (·.element) := h.stack_eq
  have hany : b.stack.any (·.id == inner.element.id) = true := by
    rw [hstack, List.any_cons, beq_self_eq_true, Bool.true_or]
  have hscope : b.inScopeWhere defaultScope (·.id == inner.element.id) = true := by
    rw [inScopeWhere, hstack, findInScope, beq_self_eq_true, Bool.true_or]
  have hdrop : b.stack.dropWhile (·.id != inner.element.id) = b.stack := by
    rw [hstack, List.dropWhile_cons_of_neg (by simp)]
  have htake : b.stack.takeWhile (·.id != inner.element.id) = [] := by
    rw [hstack, List.takeWhile_cons_of_neg (by simp)]
  unfold adoptOnce
  dsimp only
  rw [hrecent, List.find?_cons_of_pos (by simp)]
  dsimp only
  rw [hany, hscope, htake, hdrop]
  rfl

theorem closeFormatting (h : b.Path inner (level :: outer)) :
    (b.closeFormatting inner.element.name.name).Path (level.hold inner.dom) outer := by
  have hcurrent : b.currentIs inner.element.name.name = true := by
    rw [currentIs, h.current_eq]
    exact h.isContainer_level.isHtml_self
  rcases h.formatting_cases with hsublist | ⟨tag, rest, hformatting, hname, -, hrest⟩
  · have hnot : b.isFormatting b.current.id = false := by
      rw [isFormatting, List.any_eq_false, h.current_eq]
      intro entry hmem hid
      have hsome := hsublist.subset (List.mem_map_of_mem hmem)
      obtain ⟨element, helement, heq⟩ := List.mem_map.1 hsome
      obtain ⟨tag, rfl, -⟩ := FormattingEntry.eq_element_of_element?_eq_some heq.symm
      rw [h.stack_eq, List.map_cons, List.tail_cons] at helement
      obtain ⟨held, hheld, rfl⟩ := List.mem_map.1 helement
      have hsame : held.element.id = inner.element.id := by
        simpa [FormattingEntry.id?] using hid
      exact (List.nodup_cons.1 h.nodup).1 (List.mem_map.2 ⟨held, hheld, hsame⟩)
    rw [Builder.closeFormatting, hcurrent, hnot]
    exact h.closed hsublist (List.Subset.refl _)
  · have hname' : inner.element.name.name = tag.name := by rw [hname]
    have his : b.isFormatting b.current.id = true := by
      rw [isFormatting, hformatting, List.any_cons, h.current_eq]
      simp [FormattingEntry.id?]
    have hadopt : adopt 8 tag.name b =
        { b.removeFormatting inner.element.id with stack := b.stack.tail } := by
      rw [adopt, h.adoptOnce_eq hformatting]
    have hremoved : b.formatting.filter (·.id? != some inner.element.id) =
        rest.filter (·.id? != some inner.element.id) := by
      rw [hformatting, List.filter_cons_of_neg (by simp [FormattingEntry.id?])]
    rw [Builder.closeFormatting, hname', ← hname', hcurrent, his, hname', hadopt,
      Builder.removeFormatting, hremoved]
    refine h.closed ((List.filter_sublist.map _).trans hrest) fun entry hmem ↦ ?_
    rw [hformatting]
    exact List.mem_cons_of_mem _ (List.mem_filter.1 hmem).1

/-! ## Tokens -/

theorem isForeign_eq_false (h : b.Path level outer) (token : Token) :
    b.isForeign token = false := by
  simp [isForeign, h.current_eq, h.isContainer_level.1]

theorem accept_eq_inBody (h : b.Path level outer) (token : Token) (hdoctype : token ≠ .doctype)
    (hfault : token ≠ .fault) : b.accept token = b.inBody token := by
  refine accept_eq h.dropLineFeed_eq token hdoctype hfault ?_
  rw [h.isForeign_eq_false, if_neg Bool.false_ne_true, inMode_eq h.mode_eq]

theorem accept_characters (h : b.Path level outer) {text : List Char} (hne : text ≠ []) :
    (b.accept (.characters text)).Path (level.hold (.text text)) outer := by
  rw [h.accept_eq_inBody (.characters text) nofun nofun, inBody, h.reopenFormatting_eq]
  exact h.appendText hne

/-- The opening tag of a container opens it, whether or not a line feed would be dropped at that
place. A line feed right after it may be dropped. -/
theorem accept_startTag (h : Path level outer { b with dropLineFeed := false }) {tag : Tag}
    (htag : tag.name ∈ containerTags) :
    ∃ id, Path ⟨⟨id, ⟨.html, tag.name⟩⟩, htmlAttributes tag, []⟩ (level :: outer)
        { b.accept (.startTag tag) with dropLineFeed := false } ∧
      (tag.name ∉ ["pre", "listing"] → (b.accept (.startTag tag)).dropLineFeed = false) := by
  have hsame {b' : Builder} (hline : b'.dropLineFeed = false) :
      { b' with dropLineFeed := false } = b' := by
    rw [← hline]
  have haccept : b.accept (.startTag tag) = bodyStart { b with dropLineFeed := false } tag :=
    h.accept_eq_inBody (.startTag tag) nofun nofun
  rw [haccept]
  rcases List.mem_append.1 htag with hname | hphrase
  · rcases List.mem_append.1 hname with hblock | hpre
    · rw [bodyStart_block (List.mem_of_mem_erase hblock), h.closeOpenParagraph_eq]
      have hopen := h.openHtml htag
      exact ⟨_, (hsame hopen.dropLineFeed_eq).symm ▸ hopen, fun _ ↦ hopen.dropLineFeed_eq⟩
    · rw [bodyStart_pre hpre, h.closeOpenParagraph_eq]
      have hopen := h.openHtml htag
      exact ⟨_, (hsame hopen.dropLineFeed_eq).symm ▸ hopen, fun hnot ↦ absurd hpre hnot⟩
  · rw [bodyStart_phrase hphrase, h.reopenFormatting_eq]
    obtain ⟨id, hopen⟩ := h.openFormatting hphrase
    exact ⟨id, (hsame hopen.dropLineFeed_eq).symm ▸ hopen, fun _ ↦ hopen.dropLineFeed_eq⟩

/-- The end tag of the innermost container closes it. -/
theorem accept_endTag (h : Path inner (level :: outer) { b with dropLineFeed := false })
    (htag : inner.element.name.name ∈ containerTags) :
    (b.accept (.endTag inner.element.name.name)).Path (level.hold inner.dom) outer := by
  have hdisjoint : ∀ name ∈ blockTags.erase "p" ++ ["pre", "listing"], name ∉ phraseTags := by
    decide
  have haccept : b.accept (.endTag inner.element.name.name) =
      bodyEnd { b with dropLineFeed := false } inner.element.name.name :=
    h.accept_eq_inBody (.endTag inner.element.name.name) nofun nofun
  rw [haccept]
  rcases List.mem_append.1 htag with hblock | hphrase
  · rw [bodyEnd_block hblock]
    exact h.closeInScope (hdisjoint _ hblock) defaultScope
  · rw [bodyEnd_phrase hphrase]
    exact h.closeFormatting

end Path

end Builder

end NotebookTree.Html
