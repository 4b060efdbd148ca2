import NotebookTree.Proofs.Html.Frame.Tags

/-!
# Content of any kind

The wrapper of a fragment, a cell and a caption hold content of any kind, which is read in a mode
of its own in each of the three. In all of these modes tags are treated as in a body, but for those
of the elements by which the mode is set.
-/

namespace NotebookTree.Html

variable {w : Watch} {holder : OpenElement} {below : List OpenElement} {ms : List Mark}

/-- The mode in which the content of an element is read. -/
def contentMode (holder : OpenElement) : Mode :=
  if holder.isHtmlIn ["td", "th"] then .cell
  else if holder.isHtml "caption" then .caption
  else .body

/-- The wrapper of a fragment with nothing below it, or a cell or a caption in a table. -/
inductive IsSeat (holder : OpenElement) : List OpenElement → Prop where
  | wrapper (h : holder.isHtml "html" = true) : IsSeat holder []
  | part {below : List OpenElement} (h : holder.isHtmlIn ["caption", "td", "th"] = true)
      (hbelow : ∃ element ∈ below, element.isModal = true) : IsSeat holder below

theorem IsSeat.isHolder (h : IsSeat holder below) : holder.isHtmlIn holderTags = true := by
  cases h with
  | wrapper h => exact OpenElement.isHtmlIn_of_subset (OpenElement.isHtml_eq ▸ h) (by decide)
  | part h _ => exact OpenElement.isHtmlIn_of_subset h (by decide)

/-! ## The modes -/

section Modes

open Builder

/-- A token is treated as in a body if it is treated so in a cell and in a caption. -/
theorem treatsAsBody_contentMode {token : Token}
    (hcell : ∀ b : Builder, b.inCell token = .done (b.inBody token))
    (hcaption : ∀ b : Builder, b.inCaption token = .done (b.inBody token)) (holder : OpenElement) :
    (contentMode holder).TreatsAsBody token := by
  intro b hmode
  rw [inMode, hmode]
  by_cases hisCell : holder.isHtmlIn ["td", "th"] = true
  · rw [contentMode, if_pos hisCell]
    exact hcell b
  rw [contentMode, if_neg hisCell]
  by_cases hisCaption : holder.isHtml "caption" = true
  · rw [if_pos hisCaption]
    exact hcaption b
  · rw [if_neg hisCaption]

theorem treatsAsBody_characters (holder : OpenElement) (text : List Char) :
    (contentMode holder).TreatsAsBody (.characters text) :=
  treatsAsBody_contentMode (fun _ ↦ rfl) (fun _ ↦ rfl) holder

/-- The opening tags that a cell and a caption do not hold are those of parts of tables. -/
theorem treatsAsBody_startTag_of_not_mem (holder : OpenElement) {tag : Tag}
    (htag : tag.name ∉ ["caption", "col", "colgroup", "tbody", "td", "tfoot", "th", "thead",
      "tr"]) : (contentMode holder).TreatsAsBody (.startTag tag) := by
  refine treatsAsBody_contentMode (fun b ↦ ?_) (fun b ↦ ?_) holder
  · unfold inCell
    dsimp only
    rw [if_neg htag]
  · unfold inCaption
    dsimp only
    rw [if_neg htag]

theorem treatsAsBody_startTag (holder : OpenElement) {tag : Tag}
    (htag : isModalName tag.name = false) : (contentMode holder).TreatsAsBody (.startTag tag) :=
  treatsAsBody_startTag_of_not_mem holder (not_mem_of_isModalName_eq_false htag (by decide))

theorem treatsAsBody_endTag (holder : OpenElement) {name : String}
    (hname : isModalName name = false) : (contentMode holder).TreatsAsBody (.endTag name) := by
  have hnot {tags : List String} (hsub : tags ⊆ modalTags) : name ∉ tags :=
    not_mem_of_isModalName_eq_false hname hsub
  have hne {tag : String} (htag : tag ∈ modalTags) : name ≠ tag := fun heq ↦
    hnot (List.cons_subset.2 ⟨htag, List.nil_subset _⟩) (List.mem_singleton.2 heq)
  refine treatsAsBody_contentMode (fun b ↦ ?_) (fun b ↦ ?_) holder
  · unfold inCell
    dsimp only
    rw [if_neg (hnot (by decide)), if_neg (hnot (by decide)), if_neg (hnot (by decide))]
  · unfold inCaption
    dsimp only
    rw [if_neg (hne (by decide)), if_neg (hne (by decide)), if_neg (hnot (by decide))]

end Modes

namespace Builder

variable {b : Builder}

/-! ## The mode that is set again -/

theorem modeOf_cons (templateModes : List Mode) {element : OpenElement}
    (helement : element.isModal = false) {stack : List OpenElement} (hne : stack ≠ []) :
    modeOf templateModes (element :: stack) = modeOf templateModes stack := by
  have hnot {tags : List String} (hsub : tags ⊆ modalTags) : ¬element.isHtmlIn tags = true := by
    rw [OpenElement.isHtmlIn_eq_false helement hsub]
    exact Bool.false_ne_true
  obtain ⟨next, more, rfl⟩ := List.exists_cons_of_ne_nil hne
  rw [modeOf]
  · simp only [OpenElement.isHtml_eq]
    rw [if_neg (hnot (by decide)), if_neg (hnot (by decide)), if_neg (hnot (by decide)),
      if_neg (hnot (by decide)), if_neg (hnot (by decide)), if_neg (hnot (by decide)),
      if_neg (hnot (by decide)), if_neg (hnot (by decide)), if_neg (hnot (by decide))]
  · simp

/-- Above a seat the mode is that of its content. -/
theorem modeOf_of_rests (hseat : IsSeat holder below) {stack : List OpenElement}
    (h : Rests (holder :: below) stack) (templateModes : List Mode) :
    modeOf templateModes stack = contentMode holder := by
  obtain ⟨above, rest, rfl, habove, hrest⟩ := h
  obtain ⟨below', rfl, hbelow⟩ := hrest.exists_eq_cons
    (OpenElement.isModal_of_isHtmlIn hseat.isHolder (by decide))
  clear hrest
  induction above with
  | nil =>
    cases hseat with
    | wrapper hhtml =>
      have hcell : holder.isHtmlIn ["td", "th"] = false :=
        OpenElement.isHtmlIn_eq_false_of_disjoint (OpenElement.isHtml_eq ▸ hhtml) (by decide)
      have hcaption : holder.isHtmlIn ["caption"] = false :=
        OpenElement.isHtmlIn_eq_false_of_disjoint (OpenElement.isHtml_eq ▸ hhtml) (by decide)
      rw [List.sublist_nil.1 hbelow.sublist, contentMode, OpenElement.isHtml_eq, hcell, hcaption]
      rfl
    | part hpart hmodal =>
      obtain ⟨element, hmem, helement⟩ := hmodal
      have hne : below' ≠ [] := by
        rintro rfl
        have hfilter := hbelow.filter_eq
        rw [List.filter_nil, eq_comm, List.filter_eq_nil_iff] at hfilter
        exact hfilter element hmem helement
      obtain ⟨next, more, rfl⟩ := List.exists_cons_of_ne_nil hne
      have hnot {tags : List String} (htags : ∀ tag ∈ ["caption", "td", "th"], tag ∉ tags) :
          ¬holder.isHtmlIn tags = true := by
        rw [OpenElement.isHtmlIn_eq_false_of_disjoint hpart htags]
        exact Bool.false_ne_true
      rw [List.nil_append, modeOf, contentMode]
      · simp only [OpenElement.isHtml_eq]
        rw [if_neg (hnot (by decide))]
        by_cases hcell : holder.isHtmlIn ["td", "th"] = true
        · rw [if_pos hcell, if_pos hcell]
        · have hcaption : holder.isHtmlIn ["caption"] = true := by
            simp only [OpenElement.isHtmlIn, Bool.and_eq_true, decide_eq_true_eq, List.mem_cons,
              List.not_mem_nil, or_false] at hpart hcell ⊢
            exact ⟨hpart.1, hpart.2.resolve_right fun hname ↦ hcell ⟨hpart.1, hname⟩⟩
          rw [if_neg hcell, if_neg hcell, if_neg (hnot (by decide)), if_neg (hnot (by decide)),
            if_pos hcaption, if_pos hcaption]
      · simp
  | cons element above ih =>
    rw [List.forall_mem_cons] at habove
    rw [List.cons_append, modeOf_cons templateModes habove.1 (by simp), ih habove.2]

/-! ## Builders in such content -/

/-- The builder reads the content of the holder: it is steady, and the holder stays open. -/
structure Flows (w : Watch) (holder : OpenElement) (below : List OpenElement) (ms : List Mark)
    (b : Builder) : Prop where
  steady : b.Steady w (contentMode holder) ms
  framed : b.Framed holder below

namespace Flows

theorem appendText (h : b.Flows w holder below ms) (text : List Char) :
    (b.appendText text).Flows w holder below (ms ++ text.map .char) :=
  ⟨h.steady.appendText text, h.framed.appendText text⟩

theorem openHtml (h : b.Flows w holder below ms) {tag : Tag} (htag : tag.IsPlain w)
    (hname : isModalName tag.name = false) : (b.openHtml tag).Flows w holder below ms :=
  ⟨h.steady.openHtml htag, h.framed.openHtml hname⟩

theorem closeOpenParagraph (h : b.Flows w holder below ms) :
    b.closeOpenParagraph.Flows w holder below ms :=
  have hmoves := (BodyMoves.refl .comment b).closeOpenParagraph
  ⟨h.steady.closeOpenParagraph, h.framed.of_bodyMoves h.steady hmoves trivial trivial⟩

theorem reopenFormatting (h : b.Flows w holder below ms) :
    b.reopenFormatting.Flows w holder below ms :=
  ⟨h.steady.reopenFormatting, h.framed.reopenFormatting⟩

theorem leaveForeign (h : b.Flows w holder below ms) : b.leaveForeign.Flows w holder below ms :=
  ⟨h.steady.leaveForeign, h.framed.leaveForeign⟩

theorem accept_startTag (h : b.Flows w holder below ms) {tag : Tag} (htag : w.Spares tag.name)
    (hname : isModalName tag.name = false) :
    (b.accept (.startTag tag)).Flows w holder below ms :=
  ⟨h.steady.accept_startTag htag (treatsAsBody_startTag holder hname),
    h.framed.accept_startTag h.steady htag hname (treatsAsBody_startTag holder hname)⟩

theorem accept_endTag (h : b.Flows w holder below ms) {name : String}
    (hname : isModalName name = false) : (b.accept (.endTag name)).Flows w holder below ms :=
  ⟨h.steady.accept_endTag (treatsAsBody_endTag holder hname),
    h.framed.accept_endTag h.steady hname (treatsAsBody_endTag holder hname)⟩

theorem accept_characters (h : b.Flows w holder below ms) (text : List Char) :
    (b.accept (.characters text)).Flows w holder below (ms ++ text.map .char) :=
  ⟨h.steady.accept_characters (treatsAsBody_characters holder text),
    h.framed.accept_characters h.steady (treatsAsBody_characters holder text)⟩

end Flows

/-- The wrapper of a fragment. -/
def wrapper : OpenElement := ⟨0, ⟨.html, "html"⟩⟩

theorem isSeat_wrapper : IsSeat wrapper [] := .wrapper rfl

end Builder

end NotebookTree.Html
