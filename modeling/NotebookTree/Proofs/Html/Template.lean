import NotebookTree.Proofs.Html.Arrival

/-!
# Templates without contents

What is inside a template is dropped, so a template is written without contents. Its two tags leave
the text around it alone: it is closed as soon as it is opened.
-/

namespace NotebookTree.Html.Builder

variable {w : Watch} {holder : OpenElement} {below : List OpenElement} {ms : List Mark}
  {b : Builder} {tag : Tag}

/-- The builder with one more element open. -/
def withOpen (b : Builder) (element : OpenElement) : Builder :=
  { b with stack := element :: b.stack }

/-- An element that is opened is open above what was there before. -/
theorem insertElement_true (name : ElementName) (attributes : List Attribute) :
    b.insertElement true name attributes =
      (b.insertElement false name attributes).withOpen ⟨b.nextId, name⟩ := rfl

theorem isShadow_eq_false (h : ∀ entry ∈ tag.attributes, entry.1 ≠ "shadowrootmode") :
    b.isShadow tag = false := by
  have hnone : tag.attributes.any
      (fun entry ↦ entry.1 == "shadowrootmode" && entry.2 ∈ ["open", "close"]) = false := by
    rw [List.any_eq_false]
    intro entry hmem
    simp [h entry hmem]
  rw [isShadow, hnone, Bool.false_and]

/-- The builder in a template without contents. -/
def inEmptyTemplate (b : Builder) (id : Nat) : Builder :=
  { b.withOpen ⟨id, ⟨.html, "template"⟩⟩ with
    formatting := .marker :: b.formatting
    mode := .template
    templateModes := .template :: b.templateModes }

/-- The end tag of the template undoes all that its opening tag has set. -/
theorem accept_endTag_inEmptyTemplate (h : b.dropLineFeed = false) (id : Nat) :
    (b.inEmptyTemplate id).accept (.endTag "template") = b.resetMode := by
  have hdrop : (b.inEmptyTemplate id).dropLineFeed = false := h
  exact accept_endTag_eq hdrop "template" rfl

/-- A foreign element that is the innermost one is closed by its end tag. -/
theorem accept_endTag_withOpen (h : b.dropLineFeed = false) (hne : b.stack ≠ [])
    (element : OpenElement) (hforeign : element.name.vocabulary ≠ .html) {name : String}
    (hname : Text.lowerAsciiString element.name.name = name) (hother : name ∉ ["br", "p"]) :
    (b.withOpen element).accept (.endTag name) = b := by
  obtain ⟨next, more, hstack⟩ := List.exists_cons_of_ne_nil hne
  have hdrop : (b.withOpen element).dropLineFeed = false := h
  have hisForeign : (b.withOpen element).isForeign (.endTag name) = true := by
    simp [isForeign, current, withOpen, hforeign]
  have hsearch : foreignEnd.search name (b.withOpen element).stack true = some (some b.stack) := by
    rw [withOpen, hstack, foreignEnd.search]
    · simp [hname]
    · simp
  refine accept_endTag_eq hdrop name ?_
  rw [if_pos hisForeign, inForeign, if_neg hother, foreignEnd, hsearch]
  rfl

namespace Flows

theorem resetMode (h : b.Flows w holder below ms) (hseat : IsSeat holder below) :
    b.resetMode.Flows w holder below ms :=
  ⟨{ h.steady with mode_eq := modeOf_of_rests hseat h.framed.rests _ },
    ⟨h.framed.isHolder, h.framed.rests, { h.framed.free with }⟩⟩

/-- An element that is not opened may be a template too. -/
theorem insertElement_false (h : b.Flows w holder below ms) {name : ElementName}
    (hname : name.name ≠ standInTag) (attributes : List Attribute) :
    (b.insertElement false name attributes).Flows w holder below ms :=
  ⟨h.steady.insertElement_of_not_leaf false (w.not_isLeaf hname) nofun attributes,
    h.framed.insertElement false name nofun attributes⟩

/-- A template without contents is closed when it has been opened. -/
theorem accept_template (h : b.Flows w holder below ms) (hseat : IsSeat holder below)
    (hname : tag.name = "template") (hself : tag.selfClosing = false)
    (hattributes : ∀ entry ∈ tag.attributes, entry.1 ≠ "shadowrootmode") :
    (b.accept (.startTag tag)).reading = .markup ∧
      ((b.accept (.startTag tag)).accept (.endTag "template")).Flows w holder below ms := by
  by_cases hforeign : b.isForeign (.startTag tag) = true
  · have hvocabulary : b.current.name.vocabulary ≠ .html := fun hhtml ↦ by
      simp [isForeign, hhtml] at hforeign
    have hends : Foreign.endsForeign tag = false := by
      have hnames : tag.name ∉ Foreign.endingTags ∧ tag.name ≠ "font" := hname ▸ by decide
      simp [Foreign.endsForeign, hnames.1, hnames.2]
    have hadded : (b.insertElement false ⟨b.current.name.vocabulary,
        Foreign.tagName b.current.name.vocabulary tag.name⟩
        (tag.attributes.map (Foreign.attributeOf b.current.name.vocabulary))).Flows w holder below
        ms :=
      h.insertElement_false (Foreign.tagName_ne (hname ▸ by decide) (by decide) _) _
    have haccept : b.accept (.startTag tag) = b.openForeign b.current.name.vocabulary tag := by
      refine accept_startTag_eq h.steady.dropLineFeed_eq tag ?_
      rw [if_pos hforeign]
      simp only [inForeign, hends, Bool.false_eq_true, if_false]
    have hne := hadded.framed.stack_ne_nil
    have hlower : Text.lowerAsciiString
        (Foreign.tagName b.current.name.vocabulary tag.name) = "template" := by
      rw [hname]
      cases b.current.name.vocabulary <;> rfl
    rw [haccept, openForeign, hself, Bool.not_false, insertElement_true,
      accept_endTag_withOpen hadded.steady.dropLineFeed_eq hne
        ⟨b.nextId, ⟨_, Foreign.tagName b.current.name.vocabulary tag.name⟩⟩ hvocabulary hlower
        (show "template" ∉ ["br", "p"] by decide)]
    exact ⟨hadded.steady.reading_eq, hadded⟩
  · have hmode : (contentMode holder).TreatsAsBody (.startTag tag) :=
      treatsAsBody_startTag_of_not_mem holder (hname ▸ by decide)
    have hadded : (b.addHtml tag).Flows w holder below ms :=
      h.insertElement_false (hname ▸ by decide) _
    have haccept : b.accept (.startTag tag) = (b.addHtml tag).inEmptyTemplate b.nextId := by
      refine accept_startTag_eq h.steady.dropLineFeed_eq tag ?_
      rw [if_neg hforeign, hmode _ h.steady.mode_eq]
      have hshadow : b.isShadow tag = false := isShadow_eq_false hattributes
      obtain ⟨name, attributes, selfClosing⟩ := tag
      subst hname
      have hbody : b.inBody (.startTag ⟨"template", attributes, selfClosing⟩) =
        (let b := (if b.isShadow ⟨"template", attributes, selfClosing⟩ then b
          else b.openHtml ⟨"template", attributes, selfClosing⟩).pushMarker
        { b with mode := .template, templateModes := .template :: b.templateModes }) := rfl
      rw [hbody, hshadow]
      rfl
    rw [haccept, accept_endTag_inEmptyTemplate hadded.steady.dropLineFeed_eq]
    exact ⟨hadded.steady.reading_eq, hadded.resetMode hseat⟩

end Flows

/-- A template that is written without contents is read as one. -/
theorem Arrives.template {opening closing rest : List Char} {final : Builder}
    (h : Arrives (Flows w holder below) isTextChar ms (opening ++ (closing ++ rest)) final)
    (hseat : IsSeat holder below) (hname : tag.name = "template") (hself : tag.selfClosing = false)
    (hattributes : ∀ entry ∈ tag.attributes, entry.1 ≠ "shadowrootmode")
    (hopening : Token.Written (.startTag tag) opening)
    (hclosing : Token.Written (.endTag "template") closing) :
    Arrives (Flows w holder below) isTextChar ms rest final := by
  obtain ⟨limit, b, hlimit, hflows, rfl⟩ := h.exists_readAll_accept Flows.acceptsText hopening
  obtain ⟨hreading, hclosed⟩ := hflows.accept_template hseat hname hself hattributes
  obtain ⟨limit', hlimit', hread⟩ := exists_readAll_tag hreading hclosing hlimit
  rw [hread]
  exact hclosed.arrives hlimit'

end NotebookTree.Html.Builder
