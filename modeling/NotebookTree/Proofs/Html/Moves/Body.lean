import NotebookTree.Proofs.Html.Moves.Adoption

/-!
# What tags do in a body

Whichever tag is treated in a body, the builder changes by moves of a few kinds: elements are closed
and opened, formatting elements are opened again and closed, and some tags set how what comes after
them is read. `BodyMove` lists them, each with what the treatment of tags guarantees when it makes
the move, and `bodyStart` and `bodyEnd` are runs of such moves. So the cases of a body are gone
through once: what each move keeps, every tag in a body keeps.
-/

namespace NotebookTree.Html

/-- The sections and rows of tables. -/
def partTags : List String := ["tbody", "tfoot", "thead", "tr"]

/-- The elements that hold content of any kind and bound the searches in it. -/
def holderTags : List String := ["caption", "html", "td", "th"]

/-- The tags of formatting elements. -/
def formattingTags : List String := "a" :: "nobr" :: Builder.phraseTags

/-- The tags that set the mode, or how the text after them is read. -/
def settingTags : List String :=
  ["iframe", "listing", "noembed", "noframes", "noscript", "plaintext", "pre", "script", "select",
    "style", "table", "template", "textarea", "title", "xmp"]

/-- A tag for which a token in a body may open or add an element: its own, which may count as one
of another name, or one that it implies. -/
inductive Token.Yields : Token → Tag → Prop where
  | own (tag : Tag) : Yields (.startTag tag) tag
  | image (tag : Tag) : Yields (.startTag tag) { tag with name := "img" }
  | implied {token : Token} {name : String} (h : name ∈ ["br", "p"]) :
    Yields token ⟨name, [], false⟩

namespace OpenElement

variable {element : OpenElement} {tags : List String}

theorem isHtml_eq {tag : String} : element.isHtml tag = element.isHtmlIn [tag] := by
  rw [isHtml, isHtmlIn]
  by_cases h : element.name.name = tag <;> simp [h]

theorem isHtmlIn_of_subset {more : List String} (h : element.isHtmlIn tags = true)
    (hsub : tags ⊆ more) : element.isHtmlIn more = true := by
  rw [isHtmlIn, Bool.and_eq_true, decide_eq_true_eq] at h ⊢
  exact ⟨h.1, hsub h.2⟩

theorem isHtmlIn_eq_false_of_disjoint {others : List String} (h : element.isHtmlIn tags = true)
    (hdisjoint : ∀ tag ∈ tags, tag ∉ others) : element.isHtmlIn others = false := by
  rw [isHtmlIn, Bool.and_eq_true, decide_eq_true_eq] at h
  rw [isHtmlIn, decide_eq_false (hdisjoint _ h.2), Bool.and_false]

theorem isHtmlIn_eq_false_of_isHtml {tag : String} (h : element.isHtml tag = true)
    (htag : tag ∉ tags) : element.isHtmlIn tags = false :=
  isHtmlIn_eq_false_of_disjoint (isHtml_eq ▸ h) (List.forall_mem_singleton.2 htag)

end OpenElement

namespace Builder

variable {stack : List OpenElement} {scope : Scope} {wanted closes : OpenElement → Bool}

/-! ## Closing elements -/

/-- The innermost elements are closed, none of them one that holds content of any kind. -/
def Closes (before after : List OpenElement) : Prop :=
  ∃ dropped, before = dropped ++ after ∧ ∀ element ∈ dropped, element.isHtmlIn holderTags = false

theorem Closes.suffix {before after : List OpenElement} (h : Closes before after) :
    after <:+ before := by
  obtain ⟨dropped, rfl, -⟩ := h
  exact List.suffix_append dropped after

theorem closes_dropWhile
    (hcloses : ∀ element, closes element = true → element.isHtmlIn holderTags = false)
    (stack : List OpenElement) : Closes stack (stack.dropWhile closes) :=
  ⟨stack.takeWhile closes, List.takeWhile_append_dropWhile.symm, fun element hmem ↦
    hcloses element (List.all_eq_true.1 List.all_takeWhile element hmem)⟩

/-- The innermost element is closed if it has a property that no holder has. -/
theorem closes_tail (wanted : OpenElement → Bool) {other : OpenElement}
    (hwanted : wanted (stack.headD other) = true)
    (hholder : ∀ element, wanted element = true → element.isHtmlIn holderTags = false) :
    Closes stack stack.tail := by
  cases stack with
  | nil => exact ⟨[], rfl, List.forall_mem_nil _⟩
  | cons element below => exact ⟨[element], rfl, List.forall_mem_singleton.2 (hholder _ hwanted)⟩

/-- What is found within a scope that holders bound is closed, and what is above it. -/
theorem closes_popThrough
    (hscope : ∀ element, element.isHtmlIn holderTags = true → scope element = true)
    (hholder : ∀ element, wanted element = true → element.isHtmlIn holderTags = false)
    (hfound : findInScope scope wanted stack = true) :
    Closes stack (stack.dropWhile (!wanted ·)).tail := by
  induction stack with
  | nil => cases hfound
  | cons element below ih =>
    rw [findInScope, Bool.or_eq_true, Bool.and_eq_true, Bool.not_eq_true'] at hfound
    by_cases hwanted : wanted element = true
    · rw [List.dropWhile_cons_of_neg (by simp [hwanted])]
      exact ⟨[element], rfl, List.forall_mem_singleton.2 (hholder element hwanted)⟩
    · obtain ⟨hbound, hbelow⟩ := hfound.resolve_left hwanted
      obtain ⟨dropped, hsplit, hdropped⟩ := ih hbelow
      rw [List.dropWhile_cons_of_pos (by simp [hwanted])]
      refine ⟨element :: dropped, congrArg (element :: ·) hsplit,
        List.forall_mem_cons.2 ⟨Bool.eq_false_iff.2 fun helement ↦ ?_, hdropped⟩⟩
      rw [hscope element helement] at hbound
      cases hbound

/-- Closing elements that are not wanted stops at a wanted one. -/
theorem findInScope_dropWhile (hkept : ∀ element, wanted element = true → closes element = false)
    (hfound : findInScope scope wanted stack = true) :
    findInScope scope wanted (stack.dropWhile closes) = true := by
  induction stack with
  | nil => exact hfound
  | cons element below ih =>
    rw [List.dropWhile_cons]
    split
    · next hcloses =>
      rw [findInScope, Bool.or_eq_true, Bool.and_eq_true] at hfound
      refine ih (hfound.resolve_left fun hwanted ↦ ?_).2
      rw [hkept element hwanted] at hcloses
      cases hcloses
    · exact hfound

/-- The bounds of the search for an open item. -/
def itemScope : Scope := fun element ↦
  element.isHtmlIn specialTags && !element.isHtmlIn ["address", "div", "p"]

theorem findInScope_of_closeItem_search {names : List String} {name : String}
    (h : closeItem.search names stack = some name) :
    name ∈ names ∧ findInScope itemScope (·.isHtml name) stack = true := by
  induction stack with
  | nil => cases h
  | cons element below ih =>
    rw [closeItem.search] at h
    split at h
    · next hin =>
      obtain rfl := Option.some.inj h
      rw [OpenElement.isHtmlIn, Bool.and_eq_true, decide_eq_true_eq] at hin
      rw [findInScope, OpenElement.isHtml, hin.1, beq_self_eq_true]
      exact ⟨hin.2, rfl⟩
    · split at h
      · cases h
      · next hbound =>
        obtain ⟨hname, hbelow⟩ := ih h
        refine ⟨hname, ?_⟩
        rw [findInScope, hbelow, itemScope, Bool.eq_false_iff.2 hbound]
        exact Bool.or_true _

/-- A search for an ordinary element passes elements that are closed before it. -/
theorem closeOrdinary_search_dropWhile {name : String} {depth : Nat}
    (hkept : ∀ element, element.isHtml name = true → closes element = false)
    (h : closeOrdinary.search name stack = some depth) :
    closeOrdinary.search name (stack.dropWhile closes) = some depth := by
  induction stack with
  | nil => exact h
  | cons element below ih =>
    rw [List.dropWhile_cons]
    split
    · next hcloses =>
      rw [closeOrdinary.search] at h
      split at h
      · next hname =>
        rw [hkept element hname] at hcloses
        cases hcloses
      · split at h
        · cases h
        · exact ih h
    · exact h

/-- The elements above an ordinary one that is found are no special ones. -/
theorem closes_of_closeOrdinary_search {name : String} (hname : name ∉ holderTags) {depth : Nat}
    (h : closeOrdinary.search name stack = some depth) :
    Closes stack (stack.drop (stack.length - depth)) := by
  suffices ∃ dropped after, stack = dropped ++ after ∧ after.length = depth ∧
      ∀ element ∈ dropped, element.isHtmlIn holderTags = false by
    obtain ⟨dropped, after, rfl, rfl, hdropped⟩ := this
    rw [List.length_append, Nat.add_sub_cancel_right, List.drop_left]
    exact ⟨dropped, rfl, hdropped⟩
  induction stack with
  | nil => cases h
  | cons element below ih =>
    rw [closeOrdinary.search] at h
    split at h
    · next hfound =>
      obtain rfl := Option.some.inj h
      exact ⟨[element], below, rfl, rfl, List.forall_mem_singleton.2
        (OpenElement.isHtmlIn_eq_false_of_isHtml hfound hname)⟩
    · split at h
      · cases h
      · next hspecial =>
        obtain ⟨dropped, after, rfl, hlength, hdropped⟩ := ih h
        refine ⟨element :: dropped, after, rfl, hlength, List.forall_mem_cons.2
          ⟨Bool.eq_false_iff.2 fun helement ↦ hspecial ?_, hdropped⟩⟩
        exact OpenElement.isHtmlIn_of_subset helement (by decide)

theorem defaultScope_of_isHolder (element : OpenElement)
    (h : element.isHtmlIn holderTags = true) : defaultScope element = true := by
  rw [defaultScope, OpenElement.isHtmlIn_of_subset h (by decide)]
  rfl

theorem listItemScope_of_isHolder (element : OpenElement)
    (h : element.isHtmlIn holderTags = true) : listItemScope element = true := by
  rw [listItemScope, defaultScope_of_isHolder element h, Bool.true_or]

theorem buttonScope_of_isHolder (element : OpenElement)
    (h : element.isHtmlIn holderTags = true) : buttonScope element = true := by
  rw [buttonScope, defaultScope_of_isHolder element h, Bool.true_or]

theorem itemScope_of_isHolder (element : OpenElement)
    (h : element.isHtmlIn holderTags = true) : itemScope element = true := by
  rw [itemScope, OpenElement.isHtmlIn_of_subset h (by decide),
    OpenElement.isHtmlIn_eq_false_of_disjoint h (by decide)]
  rfl

/-! ## Moves -/

/-- Two builders differ at most in their modes and in how text is read. -/
structure Agrees (b b' : Builder) : Prop where
  tree_eq : b'.tree = b.tree
  nextId_eq : b'.nextId = b.nextId
  stack_eq : b'.stack = b.stack
  formatting_eq : b'.formatting = b.formatting
  form_eq : b'.form = b.form

/-- One thing that a builder does as it treats a token in a body. -/
inductive BodyMove : Token → Builder → Builder → Prop where
  | close {token : Token} {b : Builder} {stack : List OpenElement} (h : Closes b.stack stack) :
    BodyMove token b { b with stack }
  | closeOrdinary (b : Builder) (name : String) : BodyMove (.endTag name) b (b.closeOrdinary name)
  | closeFormatting (token : Token) (b : Builder) {name : String} (h : name ∈ formattingTags) :
    BodyMove token b (b.closeFormatting name)
  /-- A link is closed, and taken out of the open elements also if it is out of scope. -/
  | closeLink {token : Token} {b : Builder} {id : Nat} {tag : Tag}
    (h : .element id tag ∈ b.formatting) :
    BodyMove token b (((b.closeFormatting "a").removeFormatting id).removeOpen id)
  /-- The form is taken out of the open elements, wherever it is among them. -/
  | closeForm {token : Token} {b : Builder} {id : Nat} (h : b.form = some id) :
    BodyMove token b { b.removeOpen id with form := none }
  | forgetForm (token : Token) (b : Builder) : BodyMove token b { b with form := none }
  | closeTemplate {token : Token} {b : Builder} (h : b.isOpen "template" = true) :
    BodyMove token b b.templateEnd
  | openHtml {token : Token} {b : Builder} {tag : Tag} (htag : token.Yields tag)
    (hname : tag.name ∉ "html" :: partTags) : BodyMove token b (b.openHtml tag)
  | addHtml {token : Token} {b : Builder} {tag : Tag} (htag : token.Yields tag)
    (hname : tag.name ∉ "html" :: partTags) : BodyMove token b (b.addHtml tag)
  | openForm {b : Builder} {tag : Tag} (hname : tag.name = "form") :
    BodyMove (.startTag tag) b { b.openHtml tag with form := some b.nextId }
  | openForeign {b : Builder} {tag : Tag} {vocabulary : Vocabulary} (h : vocabulary ≠ .html)
    (hname : tag.name ∈ ["math", "svg"]) :
    BodyMove (.startTag tag) b (b.openForeign vocabulary tag)
  | reopenFormatting (token : Token) (b : Builder) : BodyMove token b b.reopenFormatting
  | openFormatting {b : Builder} {tag : Tag} (hname : tag.name ∈ formattingTags) :
    BodyMove (.startTag tag) b (b.openFormatting tag)
  | pushMarker (token : Token) (b : Builder) : BodyMove token b b.pushMarker
  | clearToMarker (token : Token) (b : Builder) : BodyMove token b b.clearToMarker
  | set {b b' : Builder} {tag : Tag} (hname : tag.name ∈ settingTags) (h : b.Agrees b') :
    BodyMove (.startTag tag) b b'

/-- A run of moves in a body, all for one token. -/
def BodyMoves (token : Token) : Builder → Builder → Prop := Relation.ReflTransGen (BodyMove token)

namespace BodyMoves

variable {token : Token} {b₀ b b' : Builder} {tag : Tag}

theorem refl (token : Token) (b : Builder) : BodyMoves token b b := Relation.ReflTransGen.refl

theorem move (h : BodyMoves token b₀ b) (hmove : BodyMove token b b') : BodyMoves token b₀ b' :=
  Relation.ReflTransGen.tail h hmove

/-- A choice between runs of moves. -/
theorem ite {c : Prop} [Decidable c] {yes no : Builder} (hyes : c → BodyMoves token b₀ yes)
    (hno : ¬c → BodyMoves token b₀ no) : BodyMoves token b₀ (if c then yes else no) := by
  split
  · next h => exact hyes h
  · next h => exact hno h

/-! ### Closing elements -/

theorem pop (h : BodyMoves token b₀ b) (wanted : OpenElement → Bool)
    (hcurrent : wanted b.current = true)
    (hholder : ∀ element, wanted element = true → element.isHtmlIn holderTags = false) :
    BodyMoves token b₀ b.pop :=
  h.move (.close (closes_tail wanted hcurrent hholder))

theorem closeImpliedExcept (h : BodyMoves token b₀ b) (kept : List String) :
    BodyMoves token b₀ (b.closeImpliedExcept kept) := by
  refine h.move (.close (closes_dropWhile (fun element helement ↦ ?_) _))
  rw [Bool.and_eq_true] at helement
  exact OpenElement.isHtmlIn_eq_false_of_disjoint helement.1 (by decide)

theorem closeImplied (h : BodyMoves token b₀ b) : BodyMoves token b₀ b.closeImplied :=
  h.closeImpliedExcept []

/-- An element that is found within its scope is closed, and what its end implies. -/
theorem closeFound (h : BodyMoves token b₀ b) {scope : Scope} {wanted : OpenElement → Bool}
    (hscope : ∀ element, element.isHtmlIn holderTags = true → scope element = true)
    (hholder : ∀ element, wanted element = true → element.isHtmlIn holderTags = false)
    (hfound : b.inScopeWhere scope wanted = true) {kept : List String}
    (hkept : ∀ element, wanted element = true →
      element.isHtmlIn impliedTags = true → element.isHtmlIn kept = true) :
    BodyMoves token b₀ ((b.closeImpliedExcept kept).popThrough wanted) := by
  refine (h.closeImpliedExcept kept).move (.close (closes_popThrough hscope hholder ?_))
  refine findInScope_dropWhile (fun element helement ↦ ?_) hfound
  cases himplied : element.isHtmlIn impliedTags with
  | false => rfl
  | true =>
    rw [hkept element helement himplied]
    rfl

/-- The end tag of an item or a paragraph keeps its own element from being closed as implied. -/
theorem closeNamed (h : BodyMoves token b₀ b) {scope : Scope} {name : String}
    (hscope : ∀ element, element.isHtmlIn holderTags = true → scope element = true)
    (hname : name ∉ holderTags) (hfound : b.inScope scope name = true) :
    BodyMoves token b₀ ((b.closeImpliedExcept [name]).popTag name) :=
  h.closeFound hscope (fun _ helement ↦ OpenElement.isHtmlIn_eq_false_of_isHtml helement hname)
    hfound fun _ helement _ ↦ OpenElement.isHtml_eq ▸ helement

theorem closeInScope (h : BodyMoves token b₀ b) {name : String} (hholder : name ∉ holderTags)
    (himplied : name ∉ impliedTags) : BodyMoves token b₀ (b.closeInScope defaultScope name) := by
  refine ite (fun hfound ↦ ?_) fun _ ↦ h
  refine h.closeFound defaultScope_of_isHolder
    (fun _ helement ↦ OpenElement.isHtmlIn_eq_false_of_isHtml helement hholder) hfound
    fun _ helement hin ↦ ?_
  rw [OpenElement.isHtmlIn_eq_false_of_isHtml helement himplied] at hin
  cases hin

theorem closeParagraph (h : BodyMoves token b₀ b) (hfound : b.inScope buttonScope "p" = true) :
    BodyMoves token b₀ b.closeParagraph :=
  h.closeNamed buttonScope_of_isHolder (by decide) hfound

theorem closeOpenParagraph (h : BodyMoves token b₀ b) : BodyMoves token b₀ b.closeOpenParagraph :=
  ite h.closeParagraph fun _ ↦ h

theorem closeItem (h : BodyMoves token b₀ b) {names : List String}
    (hnames : ∀ name ∈ names, name ∉ holderTags) : BodyMoves token b₀ (b.closeItem names) := by
  unfold Builder.closeItem
  split
  · next name hsearch =>
    obtain ⟨hname, hfound⟩ := findInScope_of_closeItem_search hsearch
    exact h.closeNamed itemScope_of_isHolder (hnames name hname) hfound
  · exact h

/-! ### Opening elements -/

theorem openHtml (h : BodyMoves token b₀ b) (htag : token.Yields tag)
    (hname : tag.name ∉ "html" :: partTags) : BodyMoves token b₀ (b.openHtml tag) :=
  h.move (.openHtml htag hname)

theorem addHtml (h : BodyMoves token b₀ b) (htag : token.Yields tag)
    (hname : tag.name ∉ "html" :: partTags) : BodyMoves token b₀ (b.addHtml tag) :=
  h.move (.addHtml htag hname)

theorem reopenFormatting (h : BodyMoves token b₀ b) : BodyMoves token b₀ b.reopenFormatting :=
  h.move (.reopenFormatting token b)

theorem pushMarker (h : BodyMoves token b₀ b) : BodyMoves token b₀ b.pushMarker :=
  h.move (.pushMarker token b)

theorem closeFormatting (h : BodyMoves token b₀ b) {name : String} (hname : name ∈ formattingTags) :
    BodyMoves token b₀ (b.closeFormatting name) :=
  h.move (.closeFormatting token b hname)

theorem closeOpenLink (h : BodyMoves token b₀ b) : BodyMoves token b₀ b.closeOpenLink := by
  rcases closeOpenLink_cases b with heq | ⟨id, tag, hentry, heq⟩
  · rwa [heq]
  · rw [heq]
    exact h.move (.closeLink hentry)

theorem openFormatting (h : BodyMoves (.startTag tag) b₀ b) (hname : tag.name ∈ formattingTags) :
    BodyMoves (.startTag tag) b₀ (b.openFormatting tag) :=
  h.move (.openFormatting hname)

theorem set (h : BodyMoves (.startTag tag) b₀ b) (hname : tag.name ∈ settingTags)
    (hagrees : b.Agrees b') : BodyMoves (.startTag tag) b₀ b' :=
  h.move (.set hname hagrees)

/-- An element is opened whose tag sets how what comes after it is read. -/
theorem openSetting (h : BodyMoves (.startTag tag) b₀ b) (hname : tag.name ∈ settingTags)
    (hagrees : (b.openHtml tag).Agrees b') : BodyMoves (.startTag tag) b₀ b' :=
  (h.openHtml (.own tag) ((show ∀ name ∈ settingTags, name ∉ "html" :: partTags by decide) _
    hname)).set hname hagrees

theorem openText (h : BodyMoves (.startTag tag) b₀ b) (hname : tag.name ∈ settingTags)
    (reading : Reading) : BodyMoves (.startTag tag) b₀ (b.openText tag reading) :=
  h.openSetting hname ⟨rfl, rfl, rfl, rfl, rfl⟩

end BodyMoves

/-! ## Tags -/

section Tags

open BodyMoves

variable {b₀ b : Builder} {tag : Tag} {token : Token}

theorem BodyMoves.headStart (h : BodyMoves (.startTag tag) b₀ b) :
    BodyMoves (.startTag tag) b₀ (b.headStart tag) := by
  unfold Builder.headStart
  refine ite (fun hname ↦ h.addHtml (.own tag) ?_) fun _ ↦ ?_
  · exact (show ∀ name ∈ _, name ∉ "html" :: partTags by decide) _ hname
  refine ite (fun hname ↦ h.openText (hname ▸ by decide) _) fun _ ↦ ?_
  refine ite (fun hname ↦ h.openText ?_ _) fun _ ↦ ?_
  · exact (show ∀ name ∈ _, name ∈ settingTags by decide) _ hname
  refine ite (fun hname ↦ h.openText (hname ▸ by decide) _) fun _ ↦ ?_
  refine ite (fun hname ↦ ?_) fun _ ↦ h
  have hopened : BodyMoves (.startTag tag) b₀ (if b.isShadow tag then b else b.openHtml tag) :=
    ite (fun _ ↦ h) fun _ ↦ h.openHtml (.own tag) (hname ▸ by decide)
  exact hopened.pushMarker.set (hname ▸ by decide) ⟨rfl, rfl, rfl, rfl, rfl⟩

/-- An opening tag in a body is treated by moves. -/
theorem bodyMoves_bodyStart (b : Builder) (tag : Tag) :
    BodyMoves (.startTag tag) b (b.bodyStart tag) := by
  have h := BodyMoves.refl (.startTag tag) b
  have hparagraph := h.closeOpenParagraph
  have hreopened := h.reopenFormatting
  have hset {b' : Builder} (hagrees : (b.closeOpenParagraph.openHtml tag).Agrees b')
      (hname : tag.name ∈ settingTags) : BodyMoves (.startTag tag) b b' :=
    hparagraph.openSetting hname hagrees
  unfold Builder.bodyStart
  dsimp only
  refine ite (fun _ ↦ h.headStart) fun _ ↦ ?_
  refine ite (fun _ ↦ h) fun hother ↦ ?_
  have hown : tag.name ∉ "html" :: partTags := fun hmem ↦
    hother ((show "html" :: partTags ⊆ _ by decide) hmem)
  have hopened := hparagraph.openHtml (.own tag) hown
  -- Blocks.
  refine ite (fun _ ↦ hopened) fun _ ↦ ?_
  refine ite (fun _ ↦ BodyMoves.openHtml (ite (fun hcurrent ↦ hparagraph.pop _ hcurrent fun _ h ↦
    OpenElement.isHtmlIn_eq_false_of_disjoint h (by decide)) fun _ ↦ hparagraph) (.own tag) hown)
    fun _ ↦ ?_
  refine ite (fun hname ↦ hset ⟨rfl, rfl, rfl, rfl, rfl⟩
    ((show ∀ name ∈ _, name ∈ settingTags by decide) _ hname)) fun _ ↦ ?_
  refine ite (fun hform ↦ ite (fun _ ↦ h) fun _ ↦ ite (fun _ ↦ hopened)
    fun _ ↦ hparagraph.move (.openForm hform)) fun _ ↦ ?_
  refine ite (fun _ ↦ (h.closeItem (by decide)).closeOpenParagraph.openHtml (.own tag) hown)
    fun _ ↦ ?_
  refine ite (fun _ ↦ (h.closeItem (by decide)).closeOpenParagraph.openHtml (.own tag) hown)
    fun _ ↦ ?_
  refine ite (fun hname ↦ hset ⟨rfl, rfl, rfl, rfl, rfl⟩ (hname ▸ by decide)) fun _ ↦ ?_
  refine ite (fun _ ↦ (h.closeInScope (by decide) (by decide)).reopenFormatting.openHtml (.own tag)
    hown) fun _ ↦ ?_
  -- Formatting elements.
  refine ite (fun hname ↦ h.closeOpenLink.reopenFormatting.openFormatting (hname ▸ by decide))
    fun _ ↦ ?_
  refine ite (fun hphrase ↦ hreopened.openFormatting (List.mem_cons_of_mem _
    (List.mem_cons_of_mem _ hphrase))) fun _ ↦ ?_
  refine ite (fun hname ↦ BodyMoves.openFormatting (ite (fun _ ↦
    (hreopened.closeFormatting (by decide)).reopenFormatting) fun _ ↦ hreopened)
    (hname ▸ by decide)) fun _ ↦ ?_
  refine ite (fun _ ↦ (hreopened.openHtml (.own tag) hown).pushMarker) fun _ ↦ ?_
  refine ite (fun hname ↦ hset ⟨rfl, rfl, rfl, rfl, rfl⟩ (hname ▸ by decide)) fun _ ↦ ?_
  -- Elements without contents.
  refine ite (fun _ ↦ hreopened.addHtml (.own tag) hown) fun _ ↦ ?_
  refine ite (fun _ ↦ h.addHtml (.own tag) hown) fun _ ↦ ?_
  refine ite (fun _ ↦ hparagraph.addHtml (.own tag) hown) fun _ ↦ ?_
  refine ite (fun _ ↦ hreopened.addHtml (.image tag) (show "img" ∉ _ by decide)) fun _ ↦ ?_
  -- Elements that hold only text.
  refine ite (fun hname ↦ BodyMoves.set (h.openText (hname ▸ by decide) (.escapable tag.name))
    (hname ▸ by decide) ⟨rfl, rfl, rfl, rfl, rfl⟩) fun _ ↦ ?_
  refine ite (fun hname ↦ hparagraph.reopenFormatting.openText (hname ▸ by decide) _) fun _ ↦ ?_
  refine ite (fun hname ↦ h.openText
    ((show ∀ name ∈ _, name ∈ settingTags by decide) _ hname) _) fun _ ↦ ?_
  -- Selections, options, ruby text and foreign elements.
  refine ite (fun hname ↦ hreopened.openSetting (hname ▸ by decide) ⟨rfl, rfl, rfl, rfl, rfl⟩)
    fun _ ↦ ?_
  refine ite (fun _ ↦ BodyMoves.openHtml (BodyMoves.reopenFormatting (ite (fun hcurrent ↦ h.pop _
    hcurrent fun _ h ↦ OpenElement.isHtmlIn_eq_false_of_isHtml h (by decide)) fun _ ↦ h)) (.own tag)
    hown) fun _ ↦ ?_
  refine ite (fun _ ↦ BodyMoves.openHtml (ite (fun _ ↦ h.closeImplied) fun _ ↦ h) (.own tag) hown)
    fun _ ↦ ?_
  refine ite (fun _ ↦ BodyMoves.openHtml (ite (fun _ ↦ h.closeImpliedExcept _) fun _ ↦ h) (.own tag)
    hown) fun _ ↦ ?_
  refine ite (fun hname ↦ hreopened.move (.openForeign (by decide) (by simp [hname])))
    fun _ ↦ ?_
  refine ite (fun hname ↦ hreopened.move (.openForeign (by decide) (by simp [hname])))
    fun _ ↦ ?_
  exact hreopened.openHtml (.own tag) hown

theorem BodyMoves.templateEnd (h : BodyMoves token b₀ b) : BodyMoves token b₀ b.templateEnd := by
  by_cases hopen : b.isOpen "template" = true
  · exact h.move (.closeTemplate hopen)
  · rw [Builder.templateEnd, if_neg hopen]
    exact h

theorem BodyMoves.formEnd (h : BodyMoves token b₀ b) : BodyMoves token b₀ b.formEnd := by
  unfold Builder.formEnd
  refine ite (fun _ ↦ h.closeInScope (by decide) (by decide)) fun _ ↦ ?_
  split
  · exact h
  · next id hform =>
    -- The elements that the end of the form implies are closed before the form is forgotten.
    have hclosed : b.closeImplied.form = some id := hform
    exact ite (fun _ ↦ h.closeImplied.move (.closeForm hclosed)) fun _ ↦ h.move (.forgetForm _ b)

/-- An end tag in a body is treated by moves. -/
theorem bodyMoves_bodyEnd (b : Builder) (name : String) :
    BodyMoves (.endTag name) b (b.bodyEnd name) := by
  have h := BodyMoves.refl (.endTag name) b
  unfold Builder.bodyEnd
  refine ite (fun _ ↦ h.templateEnd) fun _ ↦ ?_
  refine ite (fun _ ↦ h) fun _ ↦ ?_
  refine ite (fun hname ↦ h.closeInScope
    ((show ∀ name ∈ blockEndTags, name ∉ holderTags by decide) _ hname)
    ((show ∀ name ∈ blockEndTags, name ∉ impliedTags by decide) _ hname)) fun _ ↦ ?_
  refine ite (fun _ ↦ h.formEnd) fun _ ↦ ?_
  refine ite (fun _ ↦ ?_) fun _ ↦ ?_
  · -- A paragraph that is not open is opened before it is closed.
    split
    · next hfound => exact h.closeParagraph hfound
    · exact (h.openHtml (.implied (by decide)) (by decide)).closeParagraph rfl
  refine ite (fun hname ↦ ite (fun hfound ↦ ?_) fun _ ↦ h) fun _ ↦ ?_
  · refine h.closeNamed (fun element helement ↦ ?_)
      ((show ∀ name ∈ _, name ∉ holderTags by decide) _ hname) hfound
    split
    · exact listItemScope_of_isHolder element helement
    · exact defaultScope_of_isHolder element helement
  refine ite (fun _ ↦ ite (fun hfound ↦ ?_) fun _ ↦ h) fun _ ↦ ?_
  · refine h.closeFound defaultScope_of_isHolder
      (fun _ helement ↦ OpenElement.isHtmlIn_eq_false_of_disjoint helement (by decide)) hfound
      fun _ helement himplied ↦ ?_
    rw [OpenElement.isHtmlIn_eq_false_of_disjoint helement (by decide)] at himplied
    cases himplied
  refine ite (fun hname ↦ h.closeFormatting ?_) fun _ ↦ ?_
  · rcases hname with rfl | rfl | hphrase
    · decide
    · decide
    · exact List.mem_cons_of_mem _ (List.mem_cons_of_mem _ hphrase)
  refine ite (fun hname ↦ ite (fun _ ↦ BodyMoves.move (h.closeInScope
    ((show ∀ name ∈ _, name ∉ holderTags by decide) _ hname)
    ((show ∀ name ∈ _, name ∉ impliedTags by decide) _ hname)) (.clearToMarker _ _)) fun _ ↦ h)
    fun _ ↦ ?_
  refine ite (fun _ ↦ h.reopenFormatting.addHtml (.implied (by decide)) (by decide)) fun _ ↦ ?_
  exact h.move (.closeOrdinary b name)

end Tags

end Builder

end NotebookTree.Html
