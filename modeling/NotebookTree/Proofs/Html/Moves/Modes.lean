import NotebookTree.Proofs.Html.Moves.Body

/-!
# What tokens do in all modes

`Move` adds to the moves of a body what other modes and foreign content do: any elements may be
closed, text and comments are added, and parts of tables are opened where the elements above a
table, a section or a row have been closed. Each mode treats a token by a run of moves, and a whole
fragment is read by moves for the tokens in it: `built_atEnd_readAll`. So an invariant of builders
that every move keeps holds of all that is read.
-/

namespace NotebookTree.Html

/-- Tables and their parts, templates, and the wrapper of the fragment. -/
def frameTags : List String := ["html", "table", "template"] ++ partTags

/-- Is it a table or a part of one, a template or the wrapper? -/
def OpenElement.isFrame (element : OpenElement) : Bool := element.isHtmlIn frameTags

/-- Nothing stands below, or a table or a part of one, a template or the wrapper does. -/
def Footed (below : List OpenElement) : Prop := ∀ element ∈ below.head?, element.isFrame = true

/-- A token that a text is read to, or the characters of a part of one. -/
def Token.IsRead (token : Token) : Prop :=
  (∃ text, token = .characters text) ∨
    ∃ reading foreign text, token ∈ (Token.read reading foreign text).1

theorem Token.isRead_characters (text : List Char) : (Token.characters text).IsRead :=
  .inl ⟨text, rfl⟩

namespace Builder

/-- One thing that a builder does as it treats a token. -/
inductive Move : Token → Builder → Builder → Prop where
  | body {token : Token} {b b' : Builder} (h : BodyMove token b b') : Move token b b'
  | close {token : Token} {b : Builder} {stack : List OpenElement} (h : stack <:+ b.stack) :
    Move token b { b with stack }
  | appendText (token : Token) (b : Builder) (text : List Char) : Move token b (b.appendText text)
  | appendComment (token : Token) (b : Builder) : Move token b b.appendComment
  /-- A part of a table is opened, for its own tag or as implied by that of another part. -/
  | openPart {token : Token} {b : Builder} {tag : Tag}
    (htag : token = .startTag tag ∨ tag.attributes = []) (hname : tag.name ≠ "html")
    (hfooted : tag.name ∈ partTags → Footed b.stack) : Move token b (b.openHtml tag)
  | openForeign {b : Builder} {tag : Tag} {vocabulary : Vocabulary} (h : vocabulary ≠ .html) :
    Move (.startTag tag) b (b.openForeign vocabulary tag)
  | set {token : Token} {b b' : Builder} (h : b.Agrees b') : Move token b b'

/-- A run of moves, all for one token. -/
def Moves (token : Token) : Builder → Builder → Prop := Relation.ReflTransGen (Move token)

/-- A run of moves for tokens that are read. -/
def Built : Builder → Builder → Prop :=
  Relation.ReflTransGen fun b b' ↦ ∃ token : Token, token.IsRead ∧ Move token b b'

end Builder

/-- What became of a token is reached by moves. What is treated again is the token or characters. -/
def Outcome.Moved (token : Token) (b₀ : Builder) : Outcome → Prop
  | done b => Builder.Moves token b₀ b
  | again b token' =>
    Builder.Moves token b₀ b ∧ (token' = token ∨ ∃ text, token' = .characters text)

namespace Outcome.Moved

variable {token : Token} {b₀ : Builder}

theorem ite {c : Prop} [Decidable c] {yes no : Outcome} (hyes : c → yes.Moved token b₀)
    (hno : ¬c → no.Moved token b₀) : (if c then yes else no).Moved token b₀ := by
  split
  · next h => exact hyes h
  · next h => exact hno h

/-- The token itself is treated again. -/
theorem again {b : Builder} (h : Builder.Moves token b₀ b) :
    (Outcome.again b token).Moved token b₀ :=
  ⟨h, .inl rfl⟩

end Outcome.Moved

namespace Builder

variable {token : Token} {b₀ b b' : Builder} {tag : Tag}

namespace Moves

theorem refl (token : Token) (b : Builder) : Moves token b b := Relation.ReflTransGen.refl

theorem move (h : Moves token b₀ b) (hmove : Move token b b') : Moves token b₀ b' :=
  Relation.ReflTransGen.tail h hmove

/-- The token may be treated as in a body on the way. -/
theorem body (h : Moves token b₀ b) (hbody : BodyMoves token b b') : Moves token b₀ b' :=
  keeps_of_reflTransGen hbody h fun _ _ hmove hbefore ↦ hbefore.move (.body hmove)

/-- A choice between runs of moves. -/
theorem ite {c : Prop} [Decidable c] {yes no : Builder} (hyes : c → Moves token b₀ yes)
    (hno : ¬c → Moves token b₀ no) : Moves token b₀ (if c then yes else no) := by
  split
  · next h => exact hyes h
  · next h => exact hno h

/-! ## Single moves -/

theorem pop (h : Moves token b₀ b) : Moves token b₀ b.pop :=
  h.move (.close (List.tail_suffix _))

theorem popWhile (h : Moves token b₀ b) (closes : OpenElement → Bool) :
    Moves token b₀ (b.popWhile closes) :=
  h.move (.close (List.dropWhile_suffix _))

theorem popThrough (h : Moves token b₀ b) (last : OpenElement → Bool) :
    Moves token b₀ (b.popThrough last) :=
  h.move (.close ((List.tail_suffix _).trans (List.dropWhile_suffix _)))

theorem popTag (h : Moves token b₀ b) (name : String) : Moves token b₀ (b.popTag name) :=
  h.popThrough _

theorem closeInScope (h : Moves token b₀ b) (scope : Scope) (name : String) :
    Moves token b₀ (b.closeInScope scope name) :=
  ite (fun _ ↦ popTag (b := b.closeImplied) (h.popWhile _) name) fun _ ↦ h

theorem appendText (h : Moves token b₀ b) (text : List Char) : Moves token b₀ (b.appendText text) :=
  h.move (.appendText token b text)

theorem appendComment (h : Moves token b₀ b) : Moves token b₀ b.appendComment :=
  h.move (.appendComment token b)

theorem openPart (h : Moves token b₀ b) (htag : token = .startTag tag ∨ tag.attributes = [])
    (hname : tag.name ≠ "html") (hfooted : tag.name ∈ partTags → Footed b.stack) :
    Moves token b₀ (b.openHtml tag) :=
  h.move (.openPart htag hname hfooted)

theorem openHtml (h : Moves (.startTag tag) b₀ b) (hname : tag.name ∉ "html" :: partTags) :
    Moves (.startTag tag) b₀ (b.openHtml tag) :=
  h.move (.body (.openHtml (.own tag) hname))

theorem addHtml (h : Moves (.startTag tag) b₀ b) (hname : tag.name ∉ "html" :: partTags) :
    Moves (.startTag tag) b₀ (b.addHtml tag) :=
  h.move (.body (.addHtml (.own tag) hname))

theorem reopenFormatting (h : Moves token b₀ b) : Moves token b₀ b.reopenFormatting :=
  h.move (.body (.reopenFormatting token b))

theorem pushMarker (h : Moves token b₀ b) : Moves token b₀ b.pushMarker :=
  h.move (.body (.pushMarker token b))

theorem clearToMarker (h : Moves token b₀ b) : Moves token b₀ b.clearToMarker :=
  h.move (.body (.clearToMarker token b))

theorem set (h : Moves token b₀ b) (hagrees : b.Agrees b') : Moves token b₀ b' :=
  h.move (.set hagrees)

theorem withMode (h : Moves token b₀ b) (mode : Mode) : Moves token b₀ (b.withMode mode) :=
  h.set ⟨rfl, rfl, rfl, rfl, rfl⟩

theorem resetMode (h : Moves token b₀ b) : Moves token b₀ b.resetMode :=
  h.set ⟨rfl, rfl, rfl, rfl, rfl⟩

theorem headStart (h : Moves (.startTag tag) b₀ b) : Moves (.startTag tag) b₀ (b.headStart tag) :=
  h.body (BodyMoves.refl _ b).headStart

theorem templateEnd (h : Moves token b₀ b) : Moves token b₀ b.templateEnd :=
  h.body (BodyMoves.refl _ b).templateEnd

/-! ## Body -/

theorem inBody (h : Moves token b₀ b) : Moves token b₀ (b.inBody token) := by
  cases token with
  | characters text => exact h.reopenFormatting.appendText text
  | comment => exact h.appendComment
  | startTag tag => exact h.body (bodyMoves_bodyStart b tag)
  | endTag name => exact h.body (bodyMoves_bodyEnd b name)
  | nullCharacter => exact h
  | doctype => exact h
  | fault => exact h

theorem inBodyFostering (h : Moves token b₀ b) : Moves token b₀ (b.inBodyFostering token) := by
  have hfostering : Moves token b₀ { b with fostering := true } :=
    h.set ⟨rfl, rfl, rfl, rfl, rfl⟩
  exact hfostering.inBody.set ⟨rfl, rfl, rfl, rfl, rfl⟩

/-! ## Tables -/

/-- Where elements are closed up to a frame, a part of a table may stand. -/
theorem footed_popBackTo {tags : List String} (hsub : tags ⊆ frameTags) (b : Builder) :
    Footed (b.popBackTo tags).stack := by
  intro element hmem
  have hstops := List.head?_dropWhile_not (fun x : OpenElement ↦ !x.isHtmlIn tags) b.stack
  rw [show (b.stack.dropWhile fun x ↦ !x.isHtmlIn tags).head? = some element from hmem] at hstops
  exact OpenElement.isHtmlIn_of_subset (by simpa using hstops) hsub

theorem openSection (h : Moves token b₀ b) (htag : token = .startTag tag ∨ tag.attributes = [])
    (hname : tag.name ≠ "html") : Moves token b₀ (b.backToTable.openHtml tag) :=
  openPart (h.popWhile _) htag hname fun _ ↦ footed_popBackTo (by decide) b

theorem openRow (h : Moves token b₀ b) (htag : token = .startTag tag ∨ tag.attributes = [])
    (hname : tag.name ≠ "html") : Moves token b₀ (b.backToSection.openHtml tag) :=
  openPart (h.popWhile _) htag hname fun _ ↦ footed_popBackTo (by decide) b

theorem inTable (h : Moves token b₀ b) : (b.inTable token).Moved token b₀ := by
  have htable : Moves token b₀ b.backToTable := h.popWhile _
  unfold Builder.inTable
  cases token with
  | characters text =>
    exact .ite (fun _ ↦ .again (h.set ⟨rfl, rfl, rfl, rfl, rfl⟩)) fun _ ↦ h.inBodyFostering
  | nullCharacter =>
    exact .ite (fun _ ↦ .again (h.set ⟨rfl, rfl, rfl, rfl, rfl⟩)) fun _ ↦ h.inBodyFostering
  | comment => exact h.appendComment
  | doctype => exact h
  | fault => exact h
  | startTag tag =>
    dsimp only
    refine .ite (fun hname ↦ (htable.pushMarker.openHtml (hname ▸ by decide)).withMode _)
      fun _ ↦ ?_
    refine .ite (fun hname ↦ (htable.openHtml (hname ▸ by decide)).withMode _) fun _ ↦ ?_
    refine .ite (fun _ ↦ .again ((h.openSection (.inr rfl) (show "colgroup" ≠ _ by decide)).withMode
      _)) fun _ ↦ ?_
    refine .ite (fun hname ↦ (h.openSection (.inl rfl) ?_).withMode _) fun _ ↦ ?_
    · exact (show ∀ name ∈ _, name ≠ "html" by decide) _ hname
    refine .ite (fun _ ↦ .again ((h.openSection (.inr rfl) (show "tbody" ≠ _ by decide)).withMode
      _)) fun _ ↦ ?_
    refine .ite (fun _ ↦ .ite (fun _ ↦ .again (h.popTag _).resetMode) fun _ ↦ h) fun _ ↦ ?_
    refine .ite (fun _ ↦ h.headStart) fun _ ↦ ?_
    refine .ite (fun hname ↦ h.addHtml ?_) fun _ ↦ ?_
    · rw [Bool.and_eq_true, decide_eq_true_eq] at hname
      exact hname.1 ▸ by decide
    refine .ite (fun hname ↦ .ite (fun _ ↦ h) fun _ ↦ pop (h.move (.body (.openForm hname))))
      fun _ ↦ ?_
    exact h.inBodyFostering
  | endTag name =>
    dsimp only
    refine .ite (fun _ ↦ .ite (fun _ ↦ (h.popTag _).resetMode) fun _ ↦ h) fun _ ↦ ?_
    refine .ite (fun _ ↦ h) fun _ ↦ ?_
    exact .ite (fun _ ↦ h.templateEnd) fun _ ↦ h.inBodyFostering

/-- Text directly in a table is placed when the next token is treated. -/
theorem placeTableText (h : Moves token b₀ b) : Moves token b₀ b.placeTableText := by
  have hoverall : Moves token b₀ { b with tableText := [], mode := b.outerMode } :=
    h.set ⟨rfl, rfl, rfl, rfl, rfl⟩
  have hfostering :
      Moves token b₀ { b with tableText := [], mode := b.outerMode, fostering := true } :=
    h.set ⟨rfl, rfl, rfl, rfl, rfl⟩
  unfold Builder.placeTableText
  dsimp only
  refine ite (fun _ ↦ hoverall) fun _ ↦ ?_
  refine ite (fun _ ↦ hoverall.appendText _) fun _ ↦ ?_
  exact (hfostering.reopenFormatting.appendText _).set ⟨rfl, rfl, rfl, rfl, rfl⟩

theorem inTableText (h : Moves token b₀ b) : (b.inTableText token).Moved token b₀ := by
  cases token with
  | characters text => exact h.set ⟨rfl, rfl, rfl, rfl, rfl⟩
  | nullCharacter => exact h
  | _ => exact .again h.placeTableText

theorem inCaption (h : Moves token b₀ b) : (b.inCaption token).Moved token b₀ := by
  have hclosed := ((h.closeInScope tableScope "caption").clearToMarker).withMode .table
  unfold Builder.inCaption
  cases token with
  | startTag tag =>
    exact .ite (fun _ ↦ .ite (fun _ ↦ .again hclosed) fun _ ↦ h) fun _ ↦ h.inBody
  | endTag name =>
    refine .ite (fun _ ↦ .ite (fun _ ↦ hclosed) fun _ ↦ h) fun _ ↦ ?_
    refine .ite (fun _ ↦ .ite (fun _ ↦ .again hclosed) fun _ ↦ h) fun _ ↦ ?_
    exact .ite (fun _ ↦ h) fun _ ↦ h.inBody
  | _ => exact h.inBody

theorem inColumnGroup (h : Moves token b₀ b) : (b.inColumnGroup token).Moved token b₀ := by
  have hleave {b : Builder} {token' : Token} (h : Moves token b₀ b)
      (htoken : token' = token ∨ ∃ text, token' = .characters text) :
      (if b.currentIs "colgroup" then Outcome.again (b.pop.withMode .table) token'
        else .done b).Moved token b₀ :=
    .ite (fun _ ↦ ⟨h.pop.withMode _, htoken⟩) fun _ ↦ h
  unfold Builder.inColumnGroup
  cases token with
  | characters text =>
    refine .ite (fun _ ↦ ?_) fun _ ↦ h.appendText _
    exact .ite (fun _ ↦ h.appendText _) fun _ ↦ hleave (h.appendText _) (.inr ⟨_, rfl⟩)
  | comment => exact h.appendComment
  | startTag tag =>
    refine .ite (fun _ ↦ h) fun _ ↦ ?_
    refine .ite (fun hname ↦ h.addHtml (hname ▸ by decide)) fun _ ↦ ?_
    exact .ite (fun _ ↦ h.headStart) fun _ ↦ hleave h (.inl rfl)
  | endTag name =>
    refine .ite (fun _ ↦ .ite (fun _ ↦ h.pop.withMode _) fun _ ↦ h) fun _ ↦ ?_
    refine .ite (fun _ ↦ h) fun _ ↦ ?_
    exact .ite (fun _ ↦ h.templateEnd) fun _ ↦ hleave h (.inl rfl)
  | _ => exact hleave h (.inl rfl)

theorem inTableBody (h : Moves token b₀ b) : (b.inTableBody token).Moved token b₀ := by
  have hsection : Moves token b₀ b.backToSection := h.popWhile _
  have hleave : (if b.inScopeWhere tableScope (·.isHtmlIn ["table", "tbody", "tfoot"]) then
      Outcome.again (b.backToSection.pop.withMode .table) token else .done b).Moved token b₀ :=
    .ite (fun _ ↦ .again (hsection.pop.withMode _)) fun _ ↦ h
  unfold Builder.inTableBody
  cases token with
  | startTag tag =>
    refine .ite (fun hname ↦ (h.openRow (.inl rfl) (hname ▸ by decide)).withMode _) fun _ ↦ ?_
    refine .ite (fun _ ↦ .again ((h.openRow (.inr rfl) (show "tr" ≠ _ by decide)).withMode _))
      fun _ ↦ ?_
    exact .ite (fun _ ↦ hleave) fun _ ↦ h.inTable
  | endTag name =>
    refine .ite (fun _ ↦ .ite (fun _ ↦ hsection.pop.withMode _) fun _ ↦ h) fun _ ↦ ?_
    refine .ite (fun _ ↦ hleave) fun _ ↦ ?_
    exact .ite (fun _ ↦ h) fun _ ↦ h.inTable
  | _ => exact h.inTable

theorem inRow (h : Moves token b₀ b) : (b.inRow token).Moved token b₀ := by
  have hrow : Moves token b₀ b.backToRow := h.popWhile _
  have hleft := hrow.pop.withMode .tableBody
  unfold Builder.inRow
  cases token with
  | startTag tag =>
    refine .ite (fun hname ↦ ((hrow.openHtml ?_).withMode _).pushMarker) fun _ ↦ ?_
    · exact (show ∀ name ∈ _, name ∉ "html" :: partTags by decide) _ hname
    exact .ite (fun _ ↦ .ite (fun _ ↦ .again hleft) fun _ ↦ h) fun _ ↦ h.inTable
  | endTag name =>
    refine .ite (fun _ ↦ .ite (fun _ ↦ hleft) fun _ ↦ h) fun _ ↦ ?_
    refine .ite (fun _ ↦ .ite (fun _ ↦ .again hleft) fun _ ↦ h) fun _ ↦ ?_
    refine .ite (fun _ ↦ .ite (fun _ ↦ .again hleft) fun _ ↦ h) fun _ ↦ ?_
    exact .ite (fun _ ↦ h) fun _ ↦ h.inTable
  | _ => exact h.inTable

theorem closeCell (h : Moves token b₀ b) : Moves token b₀ b.closeCell :=
  ((popThrough (b := b.closeImplied) (h.popWhile _) _).clearToMarker).withMode .row

theorem inCell (h : Moves token b₀ b) : (b.inCell token).Moved token b₀ := by
  unfold Builder.inCell
  cases token with
  | startTag tag =>
    exact .ite (fun _ ↦ .ite (fun _ ↦ .again h.closeCell) fun _ ↦ h) fun _ ↦ h.inBody
  | endTag name =>
    refine .ite (fun _ ↦ .ite (fun _ ↦ ?_) fun _ ↦ h) fun _ ↦ ?_
    · exact ((h.closeInScope tableScope name).clearToMarker).withMode .row
    refine .ite (fun _ ↦ h) fun _ ↦ ?_
    exact .ite (fun _ ↦ .ite (fun _ ↦ .again h.closeCell) fun _ ↦ h) fun _ ↦ h.inBody
  | _ => exact h.inBody

/-! ## Selections, templates and text -/

theorem inSelect (h : Moves token b₀ b) : (b.inSelect token).Moved token b₀ := by
  have hpopped {c : Prop} [Decidable c] {b : Builder} (h : Moves token b₀ b) :
      Moves token b₀ (if c then b.pop else b) :=
    ite (fun _ ↦ h.pop) fun _ ↦ h
  have hclosed := (h.popTag "select").resetMode
  unfold Builder.inSelect
  cases token with
  | characters text => exact h.appendText text
  | comment => exact h.appendComment
  | startTag tag =>
    dsimp only
    refine .ite (fun hname ↦ openHtml (hpopped (hpopped h)) ?_) fun _ ↦ ?_
    · exact (show ∀ name ∈ _, name ∉ "html" :: partTags by decide) _ hname
    refine .ite (fun hname ↦ addHtml (hpopped (hpopped h)) (hname ▸ by decide)) fun _ ↦ ?_
    refine .ite (fun _ ↦ .ite (fun _ ↦ hclosed) fun _ ↦ hpopped (hpopped h)) fun _ ↦ ?_
    refine .ite (fun _ ↦ .ite (fun _ ↦ .again hclosed) fun _ ↦ hpopped (hpopped h)) fun _ ↦ ?_
    exact .ite (fun _ ↦ headStart (hpopped (hpopped h))) fun _ ↦ hpopped (hpopped h)
  | endTag name =>
    dsimp only
    refine .ite (fun _ ↦ .ite (fun _ ↦ pop (hpopped h)) fun _ ↦ hpopped h) fun _ ↦ ?_
    refine .ite (fun _ ↦ .ite (fun _ ↦ h.pop) fun _ ↦ h) fun _ ↦ ?_
    refine .ite (fun _ ↦ .ite (fun _ ↦ hclosed) fun _ ↦ h) fun _ ↦ ?_
    exact .ite (fun _ ↦ h.templateEnd) fun _ ↦ h
  | nullCharacter => exact h
  | doctype => exact h
  | fault => exact h

theorem inSelectInTable (h : Moves token b₀ b) : (b.inSelectInTable token).Moved token b₀ := by
  have hclosed := (h.popTag "select").resetMode
  unfold Builder.inSelectInTable
  cases token with
  | startTag tag => exact .ite (fun _ ↦ .again hclosed) fun _ ↦ h.inSelect
  | endTag name =>
    exact .ite (fun _ ↦ .ite (fun _ ↦ .again hclosed) fun _ ↦ h) fun _ ↦ h.inSelect
  | _ => exact h.inSelect

theorem inTemplate (h : Moves token b₀ b) : (b.inTemplate token).Moved token b₀ := by
  have hbecomes (mode : Mode) :
      (Outcome.again { b with mode, templateModes := mode :: b.templateModes.tail } token).Moved
        token b₀ :=
    .again (h.set ⟨rfl, rfl, rfl, rfl, rfl⟩)
  unfold Builder.inTemplate
  cases token with
  | startTag tag =>
    refine .ite (fun _ ↦ h.headStart) fun _ ↦ ?_
    refine .ite (fun _ ↦ hbecomes _) fun _ ↦ ?_
    refine .ite (fun _ ↦ hbecomes _) fun _ ↦ ?_
    refine .ite (fun _ ↦ hbecomes _) fun _ ↦ ?_
    exact .ite (fun _ ↦ hbecomes _) fun _ ↦ hbecomes _
  | endTag name => exact .ite (fun _ ↦ h.templateEnd) fun _ ↦ h
  | characters text => exact h.inBody
  | comment => exact h.inBody
  | nullCharacter => exact h
  | doctype => exact h
  | fault => exact h

theorem inText (h : Moves token b₀ b) : (b.inText token).Moved token b₀ := by
  cases token with
  | characters text => exact h.appendText text
  | endTag name => exact h.pop.set ⟨rfl, rfl, rfl, rfl, rfl⟩
  | _ => exact h

theorem inMode (h : Moves token b₀ b) : (b.inMode token).Moved token b₀ := by
  unfold Builder.inMode
  cases b.mode with
  | body => exact h.inBody
  | text => exact h.inText
  | table => exact h.inTable
  | tableText => exact h.inTableText
  | caption => exact h.inCaption
  | columnGroup => exact h.inColumnGroup
  | tableBody => exact h.inTableBody
  | row => exact h.inRow
  | cell => exact h.inCell
  | select => exact h.inSelect
  | selectInTable => exact h.inSelectInTable
  | template => exact h.inTemplate

end Moves

/-! ## Foreign content -/

theorem suffix_of_foreignEnd_search {name : String} {stack stack' : List OpenElement}
    {isFirst : Bool} (h : foreignEnd.search name stack isFirst = some (some stack')) :
    stack' <:+ stack := by
  induction stack generalizing isFirst with
  | nil => cases h
  | cons element rest ih =>
    cases rest with
    | nil => cases h
    | cons second others =>
      rw [foreignEnd.search] at h
      · split at h
        · cases h
        · split at h
          · cases h
            exact List.suffix_cons _ _
          · exact (ih h).trans (List.suffix_cons _ _)
      · exact List.cons_ne_nil _ _

/-- Content is foreign only inside a foreign element. -/
theorem vocabulary_ne_of_isForeign (hforeign : b.isForeign token = true) :
    b.current.name.vocabulary ≠ .html := by
  intro heq
  unfold isForeign at hforeign
  dsimp only at hforeign
  rw [heq] at hforeign
  exact Bool.false_ne_true hforeign

namespace Moves

theorem foreignEnd {name : String} (h : Moves (.endTag name) b₀ b) :
    (b.foreignEnd name).Moved (.endTag name) b₀ := by
  unfold Builder.foreignEnd
  split
  · exact h.inMode
  · next stack hfound => exact h.move (.close (suffix_of_foreignEnd_search hfound))
  · exact h

theorem inForeign (h : Moves token b₀ b) (hcurrent : b.current.name.vocabulary ≠ .html) :
    (b.inForeign token).Moved token b₀ := by
  have hleft : Moves token b₀ b.leaveForeign := h.popWhile _
  unfold Builder.inForeign
  cases token with
  | nullCharacter => exact h.appendText _
  | characters text => exact h.appendText text
  | comment => exact h.appendComment
  | doctype => exact h
  | fault => exact h
  | startTag tag =>
    exact .ite (fun _ ↦ hleft.inMode) fun _ ↦ h.move (.openForeign hcurrent)
  | endTag name => exact .ite (fun _ ↦ hleft.inMode) fun _ ↦ h.foreignEnd

end Moves

/-! ## Whole texts -/

namespace Built

theorem refl (b : Builder) : Built b b := Relation.ReflTransGen.refl

theorem moves (h : Built b₀ b) (htoken : token.IsRead) (hmoves : Moves token b b') :
    Built b₀ b' :=
  keeps_of_reflTransGen hmoves h fun _ _ hmove hbefore ↦
    Relation.ReflTransGen.tail hbefore ⟨token, htoken, hmove⟩

/-- A choice between runs of moves. -/
theorem ite {c : Prop} [Decidable c] {yes no : Builder} (hyes : c → Built b₀ yes)
    (hno : ¬c → Built b₀ no) : Built b₀ (if c then yes else no) := by
  split
  · next h => exact hyes h
  · next h => exact hno h

theorem settle (h : Built b₀ b) (htoken : token.IsRead) (limit : Nat) :
    Built b₀ (Builder.settle limit b token) := by
  induction limit generalizing b token with
  | zero => exact h
  | succ limit ih =>
    have hstep : (if b.isForeign token then b.inForeign token else b.inMode token).Moved token b :=
      .ite (fun hforeign ↦ (Moves.refl token b).inForeign (vocabulary_ne_of_isForeign hforeign))
        fun _ ↦ (Moves.refl token b).inMode
    unfold Builder.settle
    split
    · next b' heq =>
      rw [heq] at hstep
      exact h.moves htoken hstep
    · next b' token' heq =>
      rw [heq] at hstep
      refine ih (h.moves htoken hstep.1) ?_
      rcases hstep.2 with rfl | ⟨text, rfl⟩
      · exact htoken
      · exact Token.isRead_characters text

theorem accept (h : Built b₀ b) (htoken : token.IsRead) : Built b₀ (b.accept token) := by
  have hkept : Built b₀ { b with dropLineFeed := false } :=
    h.moves htoken ((Moves.refl token b).set ⟨rfl, rfl, rfl, rfl, rfl⟩)
  unfold Builder.accept
  dsimp only
  split
  · refine ite (fun _ ↦ hkept.settle htoken _) fun _ ↦ ?_
    exact ite (fun _ ↦ hkept) fun _ ↦ hkept.settle (Token.isRead_characters _) _
  · exact hkept
  · exact hkept
  · exact hkept.settle htoken _

theorem foldl_accept (h : Built b₀ b) {tokens : List Token}
    (htokens : ∀ token ∈ tokens, token.IsRead) : Built b₀ (tokens.foldl Builder.accept b) := by
  induction tokens generalizing b with
  | nil => exact h
  | cons token rest ih =>
    obtain ⟨htoken, hrest⟩ := List.forall_mem_cons.1 htokens
    exact ih (h.accept htoken) hrest

theorem readAll (h : Built b₀ b) (limit : Nat) (text : List Char) :
    Built b₀ (Builder.readAll limit b text) := by
  induction limit generalizing b text with
  | zero => exact h
  | succ limit ih =>
    cases text with
    | nil => exact h
    | cons c rest => exact ih (h.foldl_accept fun token hmem ↦ .inr ⟨_, _, _, hmem⟩) _

/-- The text that is left in a table at the end is placed as it is before any other token. -/
theorem atEnd (h : Built b₀ b) : Built b₀ b.atEnd :=
  ite (fun _ ↦ h.moves (Token.isRead_characters []) (Moves.refl _ b).placeTableText) fun _ ↦ h

end Built

/-- A fragment is read by moves for its tokens. -/
theorem built_atEnd_readAll (limit : Nat) (text : List Char) :
    Built empty (Builder.readAll limit empty text).atEnd :=
  ((Built.refl empty).readAll limit text).atEnd

end Builder

end NotebookTree.Html
