import NotebookTree.Proofs.Html.Adoption
import NotebookTree.Proofs.Html.Moves.Modes

/-!
# Tags in a steady builder

Most tags leave the text around them alone: whichever elements they open and close, a steady builder
stays steady and its tree has the same marks, as each move for such a tag in a body keeps both. The
exceptions are the opening tags of elements that hold no markup, of elements that drop or move a
part of what they hold, and of stand-ins. All end tags are harmless.
-/

namespace NotebookTree.Html

/-- The tags of elements whose contents are not read as markup, or are dropped or moved in part. -/
def alteringTags : List String :=
  ["iframe", "listing", "noembed", "noframes", "noscript", "plaintext", "pre", "script", "select",
    "style", "table", "template", "textarea", "title", "xmp", standInTag]

/-- The spelling of a tag is another name only if that is a name of SVG. -/
theorem Foreign.tagName_ne {name wanted : String} (hname : name ≠ wanted)
    (hwanted : wanted ∉ svgTags) (vocabulary : Vocabulary) : tagName vocabulary name ≠ wanted := by
  cases vocabulary with
  | html => exact hname
  | mathml => exact hname
  | svg =>
    show (svgTags.find? fun known ↦ Text.lowerAsciiString known == name).getD name ≠ wanted
    cases hfound : svgTags.find? fun known ↦ Text.lowerAsciiString known == name with
    | none => exact hname
    | some known => exact fun heq ↦ hwanted (heq ▸ List.mem_of_find?_eq_some hfound)

variable {w : Watch} {mode : Mode}

/-- An opening tag of the name leaves the text around it alone: it alters nothing, unless it is one
of a stand-in that counts as any other element. -/
structure Watch.Spares (w : Watch) (name : String) : Prop where
  eq_standInTag : name ∈ alteringTags → name = standInTag
  not_leaf : ¬w.isLeaf name
  html : w.foreign = false → name ∉ ["math", "svg"]

namespace Watch.Spares

variable {name : String}

theorem not_mem (h : w.Spares name) {names : List String} (hsub : names ⊆ alteringTags)
    (hstandIn : standInTag ∉ names) : name ∉ names := fun hmem ↦
  hstandIn (h.eq_standInTag (hsub hmem) ▸ hmem)

theorem ne (h : w.Spares name) {other : String} (hmem : other ∈ alteringTags)
    (hstandIn : other ≠ standInTag) : name ≠ other := fun heq ↦
  hstandIn (heq ▸ h.eq_standInTag (heq ▸ hmem))

/-- Its element is plain, in each vocabulary that may be there. -/
theorem isPlain (h : w.Spares name) {vocabulary : Vocabulary}
    (hvocabulary : w.foreign = false → vocabulary = .html) :
    (⟨vocabulary, Foreign.tagName vocabulary name⟩ : ElementName).IsPlain w where
  not_template heq := Foreign.tagName_ne (h.ne (by decide) (by decide)) (by decide) vocabulary
    (congrArg ElementName.name heq)
  not_leaf := by
    have hleaf := h.not_leaf
    rw [Watch.isLeaf, Bool.and_eq_true, beq_iff_eq] at hleaf ⊢
    rintro ⟨hstandIns, hname⟩
    exact Foreign.tagName_ne (fun heq ↦ hleaf ⟨hstandIns, heq⟩) (by decide) vocabulary hname
  html := hvocabulary

theorem isPlain_tag {tag : Tag} (h : w.Spares tag.name) : tag.IsPlain w :=
  show (⟨.html, Foreign.tagName .html tag.name⟩ : ElementName).IsPlain w from h.isPlain fun _ ↦ rfl

/-- A watch that may meet foreign elements spares all tags but the altering ones. -/
theorem of_not_mem (h : name ∉ alteringTags) (hforeign : w.foreign = true) : w.Spares name where
  eq_standInTag hmem := absurd hmem h
  not_leaf := w.not_isLeaf fun heq ↦ h (heq ▸ by decide)
  html hfalse := absurd (hforeign.symm.trans hfalse) (by decide)

end Watch.Spares

/-- A token leaves the text around it alone if it is no opening tag, or one of such a name. -/
def Token.Spared (w : Watch) : Token → Prop
  | startTag tag => w.Spares tag.name
  | _ => True

/-- The elements for such a token are plain. -/
theorem Token.Spared.isPlain {token : Token} (h : token.Spared w) {tag : Tag}
    (htag : token.Yields tag) : tag.IsPlain w := by
  cases htag with
  | own tag => exact Watch.Spares.isPlain_tag h
  | image tag =>
    exact ElementName.isPlain_html (show "img" ≠ _ by decide) (show "img" ≠ _ by decide)
  | implied hname =>
    obtain ⟨htemplate, hstandIn⟩ :=
      (show ∀ name ∈ ["br", "p"], name ≠ "template" ∧ name ≠ standInTag by decide) _ hname
    exact ElementName.isPlain_html htemplate hstandIn

/-- Is a token treated in the mode as it is in a body? -/
def Mode.TreatsAsBody (mode : Mode) (token : Token) : Prop :=
  ∀ b : Builder, b.mode = mode → b.inMode token = .done (b.inBody token)

namespace Builder

variable {ms : List Mark} {b : Builder}

theorem inMode_eq (h : b.mode = .body) (token : Token) :
    b.inMode token = .done (b.inBody token) := by
  rw [inMode, h]

theorem treatsAsBody_body (token : Token) : Mode.body.TreatsAsBody token := fun _ h ↦
  inMode_eq h token

/-- A token is treated until it is dealt with, at least four times if need be. -/
theorem accept_eq_settle (h : b.dropLineFeed = false) (token : Token) (hdoctype : token ≠ .doctype)
    (hfault : token ≠ .fault) : ∃ limit, b.accept token = settle (limit + 4) b token := by
  have hsame : { b with dropLineFeed := false } = b := by
    rw [← h]
  refine ⟨8 * b.stack.length + 12, ?_⟩
  unfold accept
  rw [hsame, h]
  dsimp only
  split
  · rfl
  · exact absurd rfl hdoctype
  · exact absurd rfl hfault
  · rfl

/-- A token that is dealt with at once is accepted in one step. -/
theorem accept_eq (h : b.dropLineFeed = false) (token : Token) (hdoctype : token ≠ .doctype)
    (hfault : token ≠ .fault) {b' : Builder}
    (hstep : (if b.isForeign token then b.inForeign token else b.inMode token) = .done b') :
    b.accept token = b' := by
  obtain ⟨limit, haccept⟩ := accept_eq_settle h token hdoctype hfault
  rw [haccept, settle, hstep]

theorem accept_startTag_eq (h : b.dropLineFeed = false) (tag : Tag) {b' : Builder}
    (hstep : (if b.isForeign (.startTag tag) then b.inForeign (.startTag tag)
      else b.inMode (.startTag tag)) = .done b') : b.accept (.startTag tag) = b' :=
  accept_eq h (.startTag tag) nofun nofun hstep

theorem accept_endTag_eq (h : b.dropLineFeed = false) (name : String) {b' : Builder}
    (hstep : (if b.isForeign (.endTag name) then b.inForeign (.endTag name)
      else b.inMode (.endTag name)) = .done b') : b.accept (.endTag name) = b' :=
  accept_eq h (.endTag name) nofun nofun hstep

theorem accept_characters_eq (h : b.dropLineFeed = false) (text : List Char) {b' : Builder}
    (hstep : (if b.isForeign (.characters text) then b.inForeign (.characters text)
      else b.inMode (.characters text)) = .done b') : b.accept (.characters text) = b' :=
  accept_eq h (.characters text) nofun nofun hstep

namespace Steady

/-! ## Moves in a body -/

variable {b' : Builder} {token : Token}

theorem withForm (h : b.Steady w mode ms) (form : Option Nat) : Steady w mode ms { b with form } :=
  { h with }

theorem openForeign (h : b.Steady w mode ms) (vocabulary : Vocabulary) {tag : Tag}
    (htag : w.Spares tag.name) (hforeign : w.foreign = true) :
    (b.openForeign vocabulary tag).Steady w mode ms :=
  h.insertElement _ (htag.isPlain fun hfalse ↦ absurd (hforeign.symm.trans hfalse) (by decide)) _

theorem not_isOpen_template (h : b.Steady w mode ms) : b.isOpen "template" = false := by
  rw [isOpen, List.any_eq_false]
  intro element hmem
  rw [OpenElement.isHtml_template_eq_false (h.stack_isPlain element hmem).not_template]
  exact Bool.false_ne_true

/-- A move for a token that leaves the text around it alone adds no marks. -/
theorem of_bodyMove (h : b.Steady w mode ms) (hmove : BodyMove token b b')
    (htoken : token.Spared w) : b'.Steady w mode ms := by
  cases hmove with
  | close hclose => exact h.withStack hclose.suffix.sublist
  | closeOrdinary _ name => exact h.closeOrdinary name
  | closeFormatting _ _ _ => exact h.closeFormatting _
  | closeLink _ => exact ((h.closeFormatting "a").removeFormatting _).removeOpen _
  | closeForm _ => exact (h.removeOpen _).withForm none
  | forgetForm => exact h.withForm none
  | closeTemplate hopen => exact absurd (h.not_isOpen_template.symm.trans hopen) (by decide)
  | openHtml htag _ => exact h.openHtml (htoken.isPlain htag)
  | addHtml htag _ => exact h.addHtml (htoken.isPlain htag)
  | openForm _ => exact (h.openHtml (htoken.isPlain (.own _))).withForm _
  | openForeign _ hname =>
    refine h.openForeign _ htoken ?_
    by_contra hfalse
    exact htoken.html (Bool.eq_false_iff.2 hfalse) hname
  | reopenFormatting => exact h.reopenFormatting
  | openFormatting _ => exact h.openFormatting (htoken.isPlain (.own _))
  | pushMarker => exact h.pushMarker
  | clearToMarker => exact h.clearToMarker
  | set hname _ => exact absurd hname (htoken.not_mem (by decide) (by decide))

theorem of_bodyMoves (h : b.Steady w mode ms) (hmoves : BodyMoves token b b')
    (htoken : token.Spared w) : b'.Steady w mode ms :=
  keeps_of_reflTransGen hmoves h fun _ _ hmove hbefore ↦ hbefore.of_bodyMove hmove htoken

/-- An opening tag in a body, but for the altering ones, adds no marks. -/
theorem bodyStart (h : b.Steady w mode ms) {tag : Tag} (htag : w.Spares tag.name) :
    (b.bodyStart tag).Steady w mode ms :=
  h.of_bodyMoves (bodyMoves_bodyStart b tag) htag

/-- An end tag in a body adds no marks. -/
theorem bodyEnd (h : b.Steady w mode ms) (name : String) : (b.bodyEnd name).Steady w mode ms :=
  h.of_bodyMoves (bodyMoves_bodyEnd b name) trivial

/-! ## Foreign content -/

theorem leaveForeign (h : b.Steady w mode ms) : b.leaveForeign.Steady w mode ms :=
  h.popWhile _

/-- A token is dealt with at once, and leads to a steady builder with the given marks. -/
def Deals (w : Watch) (mode : Mode) (ms : List Mark) (outcome : Outcome) : Prop :=
  ∃ b', outcome = .done b' ∧ b'.Steady w mode ms

theorem inForeign_startTag (h : b.Steady w mode ms) {tag : Tag} (htag : w.Spares tag.name)
    (hmode : mode.TreatsAsBody (.startTag tag)) (hforeign : w.foreign = true) :
    Deals w mode ms (b.inForeign (.startTag tag)) := by
  unfold inForeign
  dsimp only
  split
  · exact ⟨_, hmode _ h.leaveForeign.mode_eq, h.leaveForeign.bodyStart htag⟩
  · exact ⟨_, rfl, h.openForeign _ htag hforeign⟩

theorem inForeign_endTag (h : b.Steady w mode ms) {name : String}
    (hmode : mode.TreatsAsBody (.endTag name)) : Deals w mode ms (b.inForeign (.endTag name)) := by
  unfold inForeign foreignEnd
  dsimp only
  split
  · exact ⟨_, hmode _ h.leaveForeign.mode_eq, h.leaveForeign.bodyEnd name⟩
  · split
    · exact ⟨_, hmode _ h.mode_eq, h.bodyEnd name⟩
    · next stack hstack => exact ⟨_, rfl, h.withStack (suffix_of_foreignEnd_search hstack).sublist⟩
    · exact ⟨_, rfl, h⟩

/-! ## Whole tokens -/

/-- Content is foreign only where foreign elements may be open. -/
theorem foreign_of_isForeign (h : b.Steady w mode ms) {token : Token}
    (htoken : b.isForeign token = true) : w.foreign = true := by
  by_contra hfalse
  exact vocabulary_ne_of_isForeign htoken
    ((headD_isPlain h.stack_isPlain).html (Bool.eq_false_iff.2 hfalse))

/-- A token that is dealt with at once, in foreign content and in a body, is accepted so. -/
theorem accept (h : b.Steady w mode ms) {token : Token} (hmode : mode.TreatsAsBody token)
    {ms' : List Mark} (hdoctype : token ≠ .doctype) (hfault : token ≠ .fault)
    (hforeign : w.foreign = true → Deals w mode ms' (b.inForeign token))
    (hbody : (b.inBody token).Steady w mode ms') : (b.accept token).Steady w mode ms' := by
  obtain ⟨b', hstep, hsteady⟩ :
      Deals w mode ms' (if b.isForeign token then b.inForeign token else b.inMode token) := by
    split
    · next hisForeign => exact hforeign (h.foreign_of_isForeign hisForeign)
    · exact ⟨_, hmode _ h.mode_eq, hbody⟩
  rwa [accept_eq h.dropLineFeed_eq token hdoctype hfault hstep]

/-- An opening tag, but for the altering ones, adds no marks. -/
theorem accept_startTag (h : b.Steady w mode ms) {tag : Tag} (htag : w.Spares tag.name)
    (hmode : mode.TreatsAsBody (.startTag tag)) : (b.accept (.startTag tag)).Steady w mode ms :=
  h.accept hmode nofun nofun (h.inForeign_startTag htag hmode) (h.bodyStart htag)

/-- An end tag adds no marks. -/
theorem accept_endTag (h : b.Steady w mode ms) {name : String}
    (hmode : mode.TreatsAsBody (.endTag name)) : (b.accept (.endTag name)).Steady w mode ms :=
  h.accept hmode nofun nofun (fun _ ↦ h.inForeign_endTag hmode) (h.bodyEnd name)

/-- A text adds its characters. -/
theorem accept_characters (h : b.Steady w mode ms) {text : List Char}
    (hmode : mode.TreatsAsBody (.characters text)) :
    (b.accept (.characters text)).Steady w mode (ms ++ text.map .char) :=
  h.accept hmode nofun nofun (fun _ ↦ ⟨_, rfl, h.appendText text⟩)
    (h.reopenFormatting.appendText text)

end Steady

end Builder

end NotebookTree.Html
