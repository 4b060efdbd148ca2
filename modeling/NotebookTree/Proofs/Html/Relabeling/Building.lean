import NotebookTree.Proofs.Html.Relabeling.Basic

/-!
# Builders with other names

`Builder.Follows` says of two builders that the second is the first with other names. Each operation
of a builder keeps that up. Searches in the open elements ask only for names that may be known, or
for the name of an end tag, which is another name as well; the rest goes by numbers.
-/

namespace NotebookTree.Html

/-- What decides how a builder treats a token, apart from the open elements. -/
structure Plan where
  mode : Mode
  outerMode : Mode
  templateModes : List Mode
  reading : Reading

namespace Relabeling

variable (r : Relabeling)

/-- A property of open elements that does not depend on names that are not known. -/
def Sees (holds : OpenElement → Bool) : Prop :=
  ∀ element, holds (r.openElement element) = holds element

variable {r : Relabeling}

theorem isHtml_openElement {tag : String} (h : isReserved tag = true) (element : OpenElement) :
    (r.openElement element).isHtml tag = element.isHtml tag := by
  rw [Bool.eq_iff_iff]
  simp only [OpenElement.isHtml, openElement, elementName, Bool.and_eq_true, beq_iff_eq,
    r.rename_eq_iff h]

theorem isHtmlIn_openElement {tags : List String} (h : ∀ tag ∈ tags, isReserved tag = true)
    (element : OpenElement) : (r.openElement element).isHtmlIn tags = element.isHtmlIn tags := by
  rw [Bool.eq_iff_iff]
  simp only [OpenElement.isHtmlIn, openElement, elementName, Bool.and_eq_true, decide_eq_true_eq,
    rename_mem_iff h]

theorem sees_isHtml {tag : String} (h : isReserved tag = true) : r.Sees (·.isHtml tag) :=
  isHtml_openElement h

theorem sees_isHtmlIn {tags : List String} (h : ∀ tag ∈ tags, isReserved tag = true) :
    r.Sees (·.isHtmlIn tags) :=
  isHtmlIn_openElement h

theorem sees_id (holds : Nat → Bool) : r.Sees (holds ·.id) :=
  fun _ ↦ rfl

theorem Sees.not {holds : OpenElement → Bool} (h : r.Sees holds) : r.Sees (!holds ·) :=
  fun element ↦ congrArg (! ·) (h element)

theorem Sees.and {holds holds' : OpenElement → Bool} (h : r.Sees holds) (h' : r.Sees holds') :
    r.Sees fun element ↦ holds element && holds' element :=
  fun element ↦ by simp only [h element, h' element]

theorem Sees.or {holds holds' : OpenElement → Bool} (h : r.Sees holds) (h' : r.Sees holds') :
    r.Sees fun element ↦ holds element || holds' element :=
  fun element ↦ by simp only [h element, h' element]

theorem holdsText_elementName (name : ElementName) :
    Foreign.holdsText (r.elementName name) = Foreign.holdsText name := by
  have hmem : r.rename name.name ∈ ["mi", "mo", "mn", "ms", "mtext"] ↔
      name.name ∈ ["mi", "mo", "mn", "ms", "mtext"] := rename_mem_iff (by decide)
  rw [Bool.eq_iff_iff]
  simp only [Foreign.holdsText, elementName, Bool.and_eq_true, decide_eq_true_eq, hmem]

theorem holdsHtml_elementName (name : ElementName) :
    Foreign.holdsHtml (r.elementName name) = Foreign.holdsHtml name := by
  have hmem : r.rename name.name ∈ ["foreignObject", "desc", "title"] ↔
      name.name ∈ ["foreignObject", "desc", "title"] := rename_mem_iff (by decide)
  rw [Bool.eq_iff_iff]
  simp only [Foreign.holdsHtml, elementName, Bool.and_eq_true, decide_eq_true_eq, hmem]

theorem openElement_wrapper : r.openElement ⟨0, ⟨.html, "html"⟩⟩ = ⟨0, ⟨.html, "html"⟩⟩ := by
  rw [openElement, elementName, rename_eq_self (by decide)]

end Relabeling

namespace Builder

open Relabeling

/-- The plan of a builder. -/
def plan (b : Builder) : Plan := ⟨b.mode, b.outerMode, b.templateModes, b.reading⟩

/-- A builder with other names. -/
def relabel (r : Relabeling) (b : Builder) : Builder :=
  { b with tree := b.tree.relabel r, stack := b.stack.map r.openElement }

/-- The second builder is the first with other names. The first has a plan with a property, and
neither open elements nor formatting elements that are left out. -/
structure Follows (r : Relabeling) (plans : Plan → Prop) (b b' : Builder) : Prop where
  eq_relabel : b' = b.relabel r
  admits : ∀ element ∈ b.stack, r.Admits element.name
  keeps : ∀ entry ∈ b.formatting, r.Keeps entry
  plan : plans b.plan

variable {r : Relabeling} {plans : Plan → Prop} {b b' : Builder}

/-! ## Scopes -/

theorem sees_defaultScope : r.Sees defaultScope :=
  ((sees_isHtmlIn (by decide)).or fun element ↦ holdsText_elementName element.name).or
    fun element ↦ holdsHtml_elementName element.name

theorem sees_listItemScope : r.Sees listItemScope :=
  sees_defaultScope.or (sees_isHtmlIn (by decide))

theorem sees_buttonScope : r.Sees buttonScope :=
  sees_defaultScope.or (sees_isHtml (by decide))

theorem sees_tableScope : r.Sees tableScope :=
  sees_isHtmlIn (by decide)

theorem sees_selectScope : r.Sees selectScope :=
  (sees_isHtmlIn (by decide)).not

theorem isReserved_specialTags : ∀ tag ∈ specialTags, isReserved tag = true := by decide

theorem isReserved_impliedTags : ∀ tag ∈ impliedTags, isReserved tag = true := by decide

/-! ## Lists of open elements -/

theorem dropWhile_map_openElement {holds holds' : OpenElement → Bool} {stack : List OpenElement}
    (h : ∀ element ∈ stack, holds' (r.openElement element) = holds element) :
    (stack.map r.openElement).dropWhile holds' = (stack.dropWhile holds).map r.openElement := by
  induction stack with
  | nil => rfl
  | cons element below ih =>
    obtain ⟨helement, hbelow⟩ := List.forall_mem_cons.1 h
    rw [List.map_cons, List.dropWhile_cons, List.dropWhile_cons, helement, ih hbelow]
    split
    · rfl
    · rw [List.map_cons]

theorem takeWhile_map_openElement {holds : OpenElement → Bool} (h : r.Sees holds)
    (stack : List OpenElement) :
    (stack.map r.openElement).takeWhile holds = (stack.takeWhile holds).map r.openElement := by
  rw [List.takeWhile_map]
  exact congrArg (fun holds ↦ (stack.takeWhile holds).map r.openElement) (funext h)

theorem filter_map_openElement {holds : OpenElement → Bool} (h : r.Sees holds)
    (stack : List OpenElement) :
    (stack.map r.openElement).filter holds = (stack.filter holds).map r.openElement := by
  rw [List.filter_map]
  exact congrArg (fun holds ↦ (stack.filter holds).map r.openElement) (funext h)

theorem any_map_openElement {holds : OpenElement → Bool} (h : r.Sees holds)
    (stack : List OpenElement) : (stack.map r.openElement).any holds = stack.any holds := by
  rw [List.any_map]
  exact congrArg stack.any (funext h)

theorem find?_map_openElement {holds : OpenElement → Bool} (h : r.Sees holds)
    (stack : List OpenElement) :
    (stack.map r.openElement).find? holds = (stack.find? holds).map r.openElement := by
  rw [List.find?_map]
  exact congrArg (fun holds ↦ (stack.find? holds).map r.openElement) (funext h)

theorem headD_map_openElement (stack : List OpenElement) :
    (stack.map r.openElement).headD ⟨0, ⟨.html, "html"⟩⟩ =
      r.openElement (stack.headD ⟨0, ⟨.html, "html"⟩⟩) := by
  cases stack with
  | nil => exact openElement_wrapper.symm
  | cons element below => rfl

theorem findInScope_map {scope : Scope} {wanted wanted' : OpenElement → Bool}
    (hscope : r.Sees scope) {stack : List OpenElement}
    (hwanted : ∀ element ∈ stack, wanted' (r.openElement element) = wanted element) :
    findInScope scope wanted' (stack.map r.openElement) = findInScope scope wanted stack := by
  induction stack with
  | nil => rfl
  | cons element below ih =>
    obtain ⟨helement, hbelow⟩ := List.forall_mem_cons.1 hwanted
    rw [List.map_cons, findInScope, findInScope, helement, hscope element, ih hbelow]

theorem fosterPlace_map (stack : List OpenElement) :
    fosterPlace (stack.map r.openElement) = fosterPlace stack := by
  induction stack with
  | nil => rfl
  | cons element below ih =>
    rw [List.map_cons, fosterPlace, fosterPlace, Place.inside, Place.inside,
      isHtml_openElement (by decide), isHtml_openElement (by decide), ih, headD_map_openElement]
    rfl

/-- The open elements ask for the same mode. -/
theorem modeOf_map (templateModes : List Mode) (stack : List OpenElement) :
    modeOf templateModes (stack.map r.openElement) = modeOf templateModes stack := by
  induction stack with
  | nil => rfl
  | cons element below ih =>
    cases below with
    | nil => rfl
    | cons next below =>
      rw [List.map_cons] at ih
      simp only [List.map_cons, modeOf] at ih ⊢
      rw [ih]
      simp only [← List.map_cons, takeWhile_map_openElement
          (sees_isHtml (show isReserved "template" = true by decide)).not,
        any_map_openElement (sees_isHtml (show isReserved "table" = true by decide)),
        isHtml_openElement (show isReserved "select" = true by decide),
        isHtml_openElement (show isReserved "tr" = true by decide),
        isHtml_openElement (show isReserved "caption" = true by decide),
        isHtml_openElement (show isReserved "colgroup" = true by decide),
        isHtml_openElement (show isReserved "table" = true by decide),
        isHtml_openElement (show isReserved "template" = true by decide),
        isHtmlIn_openElement (show ∀ tag ∈ ["td", "th"], isReserved tag = true by decide),
        isHtmlIn_openElement
          (show ∀ tag ∈ ["tbody", "thead", "tfoot"], isReserved tag = true by decide),
        isHtmlIn_openElement
          (show ∀ tag ∈ ["head", "body", "frameset"], isReserved tag = true by decide)]

/-! ## Inserting nodes -/

/-- Only the tree changes where a node is put. -/
theorem exists_insertAt_eq_tree (b : Builder) (place : Place) (node : Dom) :
    ∃ tree, b.insertAt place node = { b with tree } := by
  cases place with
  | last id => exact ⟨_, rfl⟩
  | beforeTable table below =>
    unfold Builder.insertAt
    dsimp only
    split
    · exact ⟨_, rfl⟩
    · exact ⟨_, rfl⟩

theorem stack_appendText (b : Builder) (text : List Char) :
    (b.appendText text).stack = b.stack := by
  unfold Builder.appendText
  split
  · rfl
  · obtain ⟨tree, htree⟩ := exists_insertAt_eq_tree b (b.placeIn b.current) (.text text)
    rw [htree]

namespace Follows

/-! ## Parts of the builders -/

/-- A change that leaves names alone is made in both builders. -/
theorem change (h : Follows r plans b b') {plans' : Plan → Prop} (change : Builder → Builder)
    (hrelabel : ∀ b : Builder, change (b.relabel r) = (change b).relabel r)
    (hstack : ∀ b : Builder, (change b).stack.Sublist b.stack)
    (hformatting : ∀ b : Builder, (change b).formatting.Sublist b.formatting)
    (hplan : plans' (change b).plan) : Follows r plans' (change b) (change b') where
  eq_relabel := by rw [h.eq_relabel, hrelabel]
  admits := fun element hmem ↦ h.admits element ((hstack b).subset hmem)
  keeps := fun entry hmem ↦ h.keeps entry ((hformatting b).subset hmem)
  plan := hplan

theorem weaken (h : Follows r plans b b') {plans' : Plan → Prop} (hplans : plans' b.plan) :
    Follows r plans' b b' :=
  { h with plan := hplans }

/-- A choice is the same in both builders. -/
theorem ite {c c' : Prop} [Decidable c] [Decidable c'] {yes no yes' no' : Builder} (hc : c' ↔ c)
    (hyes : c → Follows r plans yes yes') (hno : ¬c → Follows r plans no no') :
    Follows r plans (if c then yes else no) (if c' then yes' else no') := by
  by_cases h : c
  · rw [if_pos h, if_pos (hc.2 h)]
    exact hyes h
  · rw [if_neg h, if_neg (mt hc.1 h)]
    exact hno h

theorem stack_eq (h : Follows r plans b b') : b'.stack = b.stack.map r.openElement := by
  rw [h.eq_relabel]
  rfl

theorem formatting_eq (h : Follows r plans b b') : b'.formatting = b.formatting := by
  rw [h.eq_relabel]
  rfl

theorem nextId_eq (h : Follows r plans b b') : b'.nextId = b.nextId := by
  rw [h.eq_relabel]
  rfl

theorem plan_eq (h : Follows r plans b b') : b'.plan = b.plan := by
  rw [h.eq_relabel]
  rfl

theorem mode_eq (h : Follows r plans b b') : b'.mode = b.mode :=
  congrArg Plan.mode h.plan_eq

theorem form_eq (h : Follows r plans b b') : b'.form = b.form := by
  rw [h.eq_relabel]
  rfl

theorem current_eq (h : Follows r plans b b') : b'.current = r.openElement b.current := by
  rw [current, h.stack_eq, headD_map_openElement]
  rfl

theorem isHtml_current (h : Follows r plans b b') {tag : String} (htag : isReserved tag = true) :
    b'.currentIs tag = b.currentIs tag := by
  rw [currentIs, currentIs, h.current_eq]
  exact sees_isHtml htag b.current

theorem isHtmlIn_current (h : Follows r plans b b') {tags : List String}
    (htags : ∀ tag ∈ tags, isReserved tag = true) :
    b'.current.isHtmlIn tags = b.current.isHtmlIn tags := by
  rw [h.current_eq]
  exact sees_isHtmlIn htags b.current

theorem isOpen_eq (h : Follows r plans b b') {tag : String} (htag : isReserved tag = true) :
    b'.isOpen tag = b.isOpen tag := by
  rw [isOpen, isOpen, h.stack_eq]
  exact any_map_openElement (sees_isHtml htag) b.stack

theorem inScopeWhere_eq (h : Follows r plans b b') {scope : Scope} {wanted : OpenElement → Bool}
    (hscope : r.Sees scope) (hwanted : r.Sees wanted) :
    b'.inScopeWhere scope wanted = b.inScopeWhere scope wanted := by
  rw [inScopeWhere, inScopeWhere, h.stack_eq]
  exact findInScope_map hscope fun element _ ↦ hwanted element

theorem inScope_eq (h : Follows r plans b b') {scope : Scope} (hscope : r.Sees scope) {tag : String}
    (htag : isReserved tag = true) : b'.inScope scope tag = b.inScope scope tag :=
  h.inScopeWhere_eq hscope (sees_isHtml htag)

/-! ## Closing elements -/

theorem pop (h : Follows r plans b b') : Follows r plans b.pop b'.pop := by
  refine h.change Builder.pop (fun b ↦ ?_) (fun b ↦ List.tail_sublist _)
    (fun b ↦ List.Sublist.refl _) h.plan
  simp only [Builder.pop, relabel, List.map_tail]

/-- Elements are closed as long as they have the same property. -/
theorem popWhile (h : Follows r plans b b') {closes closes' : OpenElement → Bool}
    (hcloses : ∀ element ∈ b.stack, closes' (r.openElement element) = closes element) :
    Follows r plans (b.popWhile closes) (b'.popWhile closes') where
  eq_relabel := by
    rw [h.eq_relabel]
    simp only [Builder.popWhile, relabel, dropWhile_map_openElement hcloses]
  admits := fun element hmem ↦ h.admits element ((List.dropWhile_sublist _).subset hmem)
  keeps := h.keeps
  plan := h.plan

theorem popWhileSeen (h : Follows r plans b b') {closes : OpenElement → Bool}
    (hcloses : r.Sees closes) : Follows r plans (b.popWhile closes) (b'.popWhile closes) :=
  h.popWhile fun element _ ↦ hcloses element

theorem popThrough (h : Follows r plans b b') {last : OpenElement → Bool} (hlast : r.Sees last) :
    Follows r plans (b.popThrough last) (b'.popThrough last) :=
  (h.popWhileSeen hlast.not).pop

theorem popTag (h : Follows r plans b b') {tag : String} (htag : isReserved tag = true) :
    Follows r plans (b.popTag tag) (b'.popTag tag) :=
  h.popThrough (sees_isHtml htag)

theorem closeImpliedExcept (h : Follows r plans b b') {kept : List String}
    (hkept : ∀ tag ∈ kept, isReserved tag = true) :
    Follows r plans (b.closeImpliedExcept kept) (b'.closeImpliedExcept kept) :=
  h.popWhileSeen ((sees_isHtmlIn isReserved_impliedTags).and (sees_isHtmlIn hkept).not)

theorem closeImplied (h : Follows r plans b b') : Follows r plans b.closeImplied b'.closeImplied :=
  h.closeImpliedExcept (List.forall_mem_nil _)

theorem closeParagraph (h : Follows r plans b b') :
    Follows r plans b.closeParagraph b'.closeParagraph :=
  (h.closeImpliedExcept (by decide)).popTag (by decide)

theorem closeOpenParagraph (h : Follows r plans b b') :
    Follows r plans b.closeOpenParagraph b'.closeOpenParagraph :=
  ite (by rw [h.inScope_eq sees_buttonScope (by decide)]) (fun _ ↦ h.closeParagraph) fun _ ↦ h

theorem removeOpen (h : Follows r plans b b') (id : Nat) :
    Follows r plans (b.removeOpen id) (b'.removeOpen id) := by
  refine h.change (Builder.removeOpen · id) (fun b ↦ ?_) (fun b ↦ List.filter_sublist)
    (fun b ↦ List.Sublist.refl _) h.plan
  simp only [Builder.removeOpen, relabel, filter_map_openElement (sees_id (· != id))]

theorem closeItem (h : Follows r plans b b') {names : List String}
    (hnames : ∀ tag ∈ names, isReserved tag = true) :
    Follows r plans (b.closeItem names) (b'.closeItem names) := by
  have hsearch (stack : List OpenElement) :
      closeItem.search names (stack.map r.openElement) = closeItem.search names stack := by
    induction stack with
    | nil => rfl
    | cons element below ih =>
      rw [List.map_cons, closeItem.search, closeItem.search, isHtmlIn_openElement hnames,
        isHtmlIn_openElement isReserved_specialTags, isHtmlIn_openElement (by decide), ih]
      by_cases helement : element.isHtmlIn names = true
      · have hmem : element.name.name ∈ names := by
          simp only [OpenElement.isHtmlIn, Bool.and_eq_true, decide_eq_true_eq] at helement
          exact helement.2
        rw [if_pos helement, if_pos helement]
        exact congrArg some (rename_eq_self (hnames _ hmem))
      · rw [if_neg helement, if_neg helement]
  unfold Builder.closeItem
  rw [h.stack_eq, hsearch b.stack]
  split
  · next name hname =>
    have hreserved := hnames name (findInScope_of_closeItem_search hname).1
    exact (h.closeImpliedExcept (by simpa using hreserved)).popTag hreserved
  · exact h

theorem closeInScope (h : Follows r plans b b') {scope : Scope} (hscope : r.Sees scope)
    {name : String} (hname : isReserved name = true) :
    Follows r plans (b.closeInScope scope name) (b'.closeInScope scope name) :=
  ite (by rw [h.inScope_eq hscope hname]) (fun _ ↦ h.closeImplied.popTag hname) fun _ ↦ h

/-- An end tag closes the same ordinary element if the same open elements have its name. -/
theorem closeOrdinary (h : Follows r plans b b') {name name' : String}
    (hname : ∀ element ∈ b.stack, r.rename element.name.name = name' ↔ element.name.name = name) :
    Follows r plans (b.closeOrdinary name) (b'.closeOrdinary name') := by
  have hhtml : ∀ element ∈ b.stack,
      (r.openElement element).isHtml name' = element.isHtml name := by
    intro element hmem
    rw [Bool.eq_iff_iff]
    simp only [OpenElement.isHtml, openElement, elementName, Bool.and_eq_true, beq_iff_eq,
      hname element hmem]
  have hsearch : ∀ stack : List OpenElement,
      (∀ element ∈ stack, (r.openElement element).isHtml name' = element.isHtml name) →
        closeOrdinary.search name' (stack.map r.openElement) =
          closeOrdinary.search name stack := by
    intro stack hstack
    induction stack with
    | nil => rfl
    | cons element below ih =>
      obtain ⟨helement, hbelow⟩ := List.forall_mem_cons.1 hstack
      rw [List.map_cons, closeOrdinary.search, closeOrdinary.search, helement,
        isHtmlIn_openElement isReserved_specialTags, ih hbelow, List.length_map]
  have hclosed : Follows r plans (b.closeImpliedExcept [name]) (b'.closeImpliedExcept [name']) := by
    refine h.popWhile fun element hmem ↦ ?_
    have hkept : (r.openElement element).isHtmlIn [name'] = element.isHtmlIn [name] := by
      have helement := hhtml element hmem
      rw [Bool.eq_iff_iff] at helement ⊢
      simpa only [OpenElement.isHtml, OpenElement.isHtmlIn, Bool.and_eq_true, beq_iff_eq,
        decide_eq_true_eq, List.mem_singleton] using helement
    rw [hkept, isHtmlIn_openElement isReserved_impliedTags]
  unfold Builder.closeOrdinary
  rw [h.stack_eq, hsearch b.stack hhtml]
  split
  · exact h
  · next depth hdepth =>
    exact {
      eq_relabel := by
        rw [hclosed.eq_relabel]
        simp only [relabel, List.map_drop, List.length_map]
      admits := fun element hmem ↦ hclosed.admits element ((List.drop_sublist _ _).subset hmem)
      keeps := hclosed.keeps
      plan := hclosed.plan }

/-! ## Inserting nodes -/

theorem placeIn_eq (h : Follows r plans b b') (target : OpenElement) :
    b'.placeIn (r.openElement target) = b.placeIn target := by
  rw [h.eq_relabel]
  simp only [placeIn, relabel, fosterPlace_map, Place.inside,
    isHtmlIn_openElement (show ∀ tag ∈ ["table", "tbody", "tfoot", "thead", "tr"],
      isReserved tag = true by decide),
    isHtml_openElement (show isReserved "template" = true by decide)]
  rfl

/-- The same node with other names is put at the same place. -/
theorem insertAt (h : Follows r plans b b') (place : Place) (node : Dom) :
    Follows r plans (b.insertAt place node) (b'.insertAt place (node.relabel r)) := by
  have htree {tree : Dom} : Follows r plans { b with tree } { b' with tree := tree.relabel r } :=
    ⟨by rw [h.eq_relabel]; rfl, h.admits, h.keeps, h.plan⟩
  have hupdate (id : Nat) : (Dom.update? id (Dom.push (node.relabel r)) b'.tree).getD b'.tree =
      ((Dom.update? id (Dom.push node) b.tree).getD b.tree).relabel r := by
    have htree' : b'.tree = b.tree.relabel r := congrArg Builder.tree h.eq_relabel
    rw [htree', Dom.update?_relabel fun children ↦ (Dom.relabelAll_push node children).symm]
    cases Dom.update? id (Dom.push node) b.tree <;> rfl
  have hlast (id : Nat) : Follows r plans
      { b with tree := (b.tree.update? id (Dom.push node)).getD b.tree }
      { b' with tree := (b'.tree.update? id (Dom.push (node.relabel r))).getD b'.tree } := by
    rw [hupdate]
    exact htree
  cases place with
  | last id => exact hlast id
  | beforeTable table below =>
    have hbefore : Dom.insertBefore? table (node.relabel r) b'.tree =
        (Dom.insertBefore? table node b.tree).map (Dom.relabel r) := by
      rw [h.eq_relabel]
      exact Dom.insertBefore?_relabel table node b.tree
    simp only [Builder.insertAt, hbefore]
    cases Dom.insertBefore? table node b.tree with
    | some tree => exact htree
    | none => exact hlast below

theorem insertInto (h : Follows r plans b b') (target : OpenElement) (node : Dom) :
    Follows r plans (b.insertAt (b.placeIn target) node)
      (b'.insertAt (b'.placeIn (r.openElement target)) (node.relabel r)) := by
  rw [h.placeIn_eq]
  exact h.insertAt _ node

theorem insert (h : Follows r plans b b') (node : Dom) :
    Follows r plans (b.insertAt (b.placeIn b.current) node)
      (b'.insertAt (b'.placeIn b'.current) (node.relabel r)) := by
  rw [h.current_eq]
  exact h.insertInto b.current node

theorem appendText (h : Follows r plans b b') (text : List Char) :
    Follows r plans (b.appendText text) (b'.appendText text) :=
  ite Iff.rfl (fun _ ↦ h) fun _ ↦ h.insert (.text text)

theorem appendComment (h : Follows r plans b b') :
    Follows r plans b.appendComment b'.appendComment :=
  h.insert .comment

/-- The same element with another name is added. -/
theorem insertElement (h : Follows r plans b b') (opened : Bool) (name : ElementName)
    {attributes : List Attribute} (htitle : r.title name.name = r.rename name.name)
    (hattributes : r.attributes attributes = attributes)
    (hadmits : opened = true → r.Admits name) :
    Follows r plans (b.insertElement opened name attributes)
      (b'.insertElement opened (r.elementName name) attributes) := by
  have htemplate : r.elementName name = ⟨.html, "template"⟩ ↔ name = ⟨.html, "template"⟩ := by
    rw [ElementName.mk.injEq, elementName, ElementName.mk.injEq]
    exact and_congr_right fun _ ↦ r.rename_eq_iff (by decide)
  have hchildren (id : Nat) :
      (if r.elementName name = ⟨.html, "template"⟩ then [Dom.contents (contentsId id) []]
        else []) =
        Dom.relabelAll r
          (if name = ⟨.html, "template"⟩ then [Dom.contents (contentsId id) []] else []) := by
    by_cases hname : name = ⟨.html, "template"⟩
    · rw [if_pos hname, if_pos (htemplate.2 hname)]
      simp only [Dom.relabelAll, Dom.relabel]
    · rw [if_neg hname, if_neg (mt htemplate.1 hname), Dom.relabelAll]
  have hnode : Dom.relabel r (.element b.nextId name attributes
      (if name = ⟨.html, "template"⟩ then [Dom.contents (contentsId b.nextId) []] else [])) =
        .element b.nextId (r.elementName name) attributes
          (if r.elementName name = ⟨.html, "template"⟩ then
            [Dom.contents (contentsId b.nextId) []] else []) := by
    rw [Dom.relabel, htitle, hattributes, hchildren]
    rfl
  have hinsert := h.insert (.element b.nextId name attributes
    (if name = ⟨.html, "template"⟩ then [Dom.contents (contentsId b.nextId) []] else []))
  rw [hnode] at hinsert
  unfold Builder.insertElement
  rw [h.nextId_eq]
  dsimp only
  generalize b.insertAt _ _ = inserted at hinsert ⊢
  generalize b'.insertAt _ _ = inserted' at hinsert ⊢
  refine ⟨?_, ?_, hinsert.keeps, hinsert.plan⟩
  · rw [hinsert.eq_relabel]
    cases opened <;> rfl
  · cases opened with
    | false => exact hinsert.admits
    | true => exact List.forall_mem_cons.2 ⟨hadmits rfl, hinsert.admits⟩

theorem openHtml (h : Follows r plans b b') {tag : Tag} (htag : r.AcceptsTag tag) :
    Follows r plans (b.openHtml tag) (b'.openHtml (r.tag tag)) :=
  h.insertElement true ⟨.html, tag.name⟩ (htag.title_tagName .html) htag.htmlAttributes_eq
    fun _ ↦ htag.admits_tagName .html

theorem addHtml (h : Follows r plans b b') {tag : Tag} (htag : r.AcceptsTag tag) :
    Follows r plans (b.addHtml tag) (b'.addHtml (r.tag tag)) :=
  h.insertElement false ⟨.html, tag.name⟩ (htag.title_tagName .html) htag.htmlAttributes_eq nofun

/-- An element of a known name is added. -/
theorem addKnown (h : Follows r plans b b') (tag : Tag) (htag : isReserved tag.name = true)
    (hattributes : r.attributes (htmlAttributes tag) = htmlAttributes tag) :
    Follows r plans (b.addHtml tag) (b'.addHtml tag) := by
  have hname : r.elementName ⟨.html, tag.name⟩ = ⟨.html, tag.name⟩ :=
    congrArg (ElementName.mk .html) (rename_eq_self htag)
  have htitle : r.title tag.name = r.rename tag.name := by
    rw [r.title_eq_self htag, rename_eq_self htag]
  have hadd := h.insertElement false ⟨.html, tag.name⟩ htitle hattributes nofun
  rwa [hname] at hadd

theorem openTag (h : Follows r plans b b') {name : String} (hname : isReserved name = true)
    (hadmits : r.Admits ⟨.html, name⟩) : Follows r plans (b.openTag name) (b'.openTag name) := by
  have hself : r.elementName ⟨.html, name⟩ = ⟨.html, name⟩ :=
    congrArg (ElementName.mk .html) (rename_eq_self hname)
  have htitle : r.title name = r.rename name := by
    rw [r.title_eq_self hname, rename_eq_self hname]
  have hopen := h.insertElement true ⟨.html, name⟩ htitle r.attributes_nil fun _ ↦ hadmits
  rwa [hself] at hopen

theorem openForeign (h : Follows r plans b b') (vocabulary : Vocabulary) {tag : Tag}
    (htag : r.AcceptsTag tag) :
    Follows r plans (b.openForeign vocabulary tag) (b'.openForeign vocabulary (r.tag tag)) := by
  have hopen := h.insertElement (!tag.selfClosing)
    ⟨vocabulary, Foreign.tagName vocabulary tag.name⟩ (htag.title_tagName vocabulary)
    (htag.foreignAttributes_eq vocabulary) fun _ ↦ htag.admits_tagName vocabulary
  rwa [elementName, htag.rename_tagName vocabulary] at hopen

/-! ## Formatting elements -/

/-- The formatting elements change in both builders. -/
theorem withFormatting (h : Follows r plans b b') {formatting : List FormattingEntry}
    (hkeeps : ∀ entry ∈ formatting, r.Keeps entry) :
    Follows r plans { b with formatting } { b' with formatting } :=
  ⟨by rw [h.eq_relabel]; rfl, h.admits, hkeeps, h.plan⟩

theorem pushMarker (h : Follows r plans b b') : Follows r plans b.pushMarker b'.pushMarker := by
  rw [Builder.pushMarker, Builder.pushMarker, h.formatting_eq]
  exact h.withFormatting (List.forall_mem_cons.2 ⟨trivial, h.keeps⟩)

theorem clearToMarker (h : Follows r plans b b') :
    Follows r plans b.clearToMarker b'.clearToMarker :=
  h.change Builder.clearToMarker (fun _ ↦ rfl) (fun _ ↦ List.Sublist.refl _)
    (fun _ ↦ (List.tail_sublist _).trans (List.dropWhile_sublist _)) h.plan

theorem removeFormatting (h : Follows r plans b b') (id : Nat) :
    Follows r plans (b.removeFormatting id) (b'.removeFormatting id) :=
  h.change (Builder.removeFormatting · id) (fun _ ↦ rfl) (fun _ ↦ List.Sublist.refl _)
    (fun _ ↦ List.filter_sublist) h.plan

/-- A formatting element that keeps its name is opened. -/
theorem openKept (h : Follows r plans b b') {tag : Tag} (htag : tag.name ∈ formattingTags)
    (haccepts : r.AcceptsTag tag) : Follows r plans (b.openHtml tag) (b'.openHtml tag) := by
  have hopen := h.openHtml haccepts
  rwa [tag_eq_self (isReserved_formattingTags _ htag)] at hopen

theorem reopen {entries done : List FormattingEntry} (h : Follows r plans b b')
    (hdone : ∀ entry ∈ done, r.Keeps entry) (hentries : ∀ entry ∈ entries, r.Keeps entry) :
    Follows r plans (b.reopen done entries) (b'.reopen done entries) := by
  induction entries generalizing b b' done with
  | nil => exact h.withFormatting hdone
  | cons entry rest ih =>
    obtain ⟨hentry, hrest⟩ := List.forall_mem_cons.1 hentries
    cases entry with
    | marker => exact ih h (List.forall_mem_cons.2 ⟨trivial, hdone⟩) hrest
    | element id tag =>
      rw [Builder.reopen, Builder.reopen, h.nextId_eq]
      exact ih (h.openKept hentry.1 hentry.2) (List.forall_mem_cons.2 ⟨hentry, hdone⟩) hrest

theorem isClosedFormatting_eq (h : Follows r plans b b') :
    b'.isClosedFormatting = b.isClosedFormatting := by
  funext entry
  cases entry with
  | marker => rfl
  | element id tag =>
    simp only [isClosedFormatting, FormattingEntry.id?, h.stack_eq,
      any_map_openElement (sees_id (· == id))]

theorem reopenFormatting (h : Follows r plans b b') :
    Follows r plans b.reopenFormatting b'.reopenFormatting := by
  rw [Builder.reopenFormatting, Builder.reopenFormatting, h.isClosedFormatting_eq, h.formatting_eq]
  refine h.reopen (fun entry hmem ↦ h.keeps entry (List.mem_of_mem_drop hmem)) fun entry hmem ↦ ?_
  rw [List.mem_reverse] at hmem
  exact h.keeps entry ((List.takeWhile_sublist _).subset hmem)

theorem openFormatting (h : Follows r plans b b') {tag : Tag} (htag : tag.name ∈ formattingTags)
    (haccepts : r.AcceptsTag tag) :
    Follows r plans (b.openFormatting tag) (b'.openFormatting tag) := by
  have hopen {b b' : Builder} (h : Follows r plans b b') : Follows r plans
      { b.openHtml tag with formatting := .element b.nextId tag :: (b.openHtml tag).formatting }
      { b'.openHtml tag with
        formatting := .element b'.nextId tag :: (b'.openHtml tag).formatting } := by
    have hopened := h.openKept htag haccepts
    rw [h.nextId_eq, hopened.formatting_eq]
    exact hopened.withFormatting (List.forall_mem_cons.2 ⟨⟨htag, haccepts⟩, hopened.keeps⟩)
  unfold Builder.openFormatting recentFormatting
  rw [h.formatting_eq]
  apply hopen
  split
  · split
    · exact h.removeFormatting _
    · exact h
  · exact h

end Follows

end Builder

end NotebookTree.Html
