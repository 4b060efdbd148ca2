import NotebookTree.Proofs.Html.Siblings
import NotebookTree.Proofs.Markdown.Regular
import NotebookTree.Proofs.Prose.Conservation
import NotebookTree.Proofs.Prose.Text

/-!
# Texts among siblings

Two texts that stand next to each other are one text that was split. The drafts of a Markdown text
have none, since each construct joins what it closes over: `Draft.textsApart_ofEvents`. Lowering
keeps this, as it turns texts into texts and elements into elements, and elements take the places of
stand-ins: `Draft.textsApart_of_lowerAll`. Only the compiled fragments may bring texts together,
where a comment between two texts is left out. `Draft.NoneBridged` excludes this, and then
`compileProse_texts_apart` holds of every list of siblings.
-/

namespace NotebookTree

open Markdown (Construct Event Passage)
open Markdown.Passage (regularAll)

/-! ## Drafts -/

namespace Draft

/-- The children of a draft; a text and raw markup have none. -/
def children : Draft → List Draft
  | element _ _ children => children
  | _ => []

/-- Is the draft a text? -/
def isText : Draft → Bool
  | text _ => true
  | _ => false

/-- No text stands next to a text, at any depth. -/
abbrev TextsApart (drafts : List Draft) : Prop := ApartBelow children isText drafts

/-- No text stands next to a text below the drafts. -/
def ApartInside (drafts : List Draft) : Prop := ∀ draft ∈ drafts, TextsApart draft.children

variable {drafts more : List Draft} {draft : Draft}

theorem textsApart_nil : TextsApart [] :=
  throughout_iff.2 ⟨.nil, List.forall_mem_nil _⟩

theorem textsApart_singleton (h : TextsApart draft.children) : TextsApart [draft] :=
  throughout_iff.2 ⟨.singleton draft, List.forall_mem_singleton.2 h⟩

theorem isText_eq_false (h : draft.isElement = true) : draft.isText = false := by
  cases draft with
  | element tag attributes children => rfl
  | text value => cases h
  | raw markup => cases h

theorem textsApart_of_isElement (h : ∀ draft ∈ drafts, draft.isElement)
    (hinside : ApartInside drafts) : TextsApart drafts :=
  throughout_iff.2 ⟨.of_forall_not fun draft hmem ↦ isText_eq_false (h draft hmem), hinside⟩

/-! ### Joining -/

theorem apart_joinOnto (h : Apart isText drafts) : Apart isText (joinOnto draft drafts) := by
  unfold joinOnto
  split
  · exact Apart.cons_iff.2 ⟨(Apart.cons_iff.1 h).1, h.tail⟩
  · exact Apart.cons_of_not rfl h.tail
  · next htext _ =>
    refine Apart.cons_iff.2 ⟨fun next hnext hends ↦ ?_, h⟩
    cases draft with
    | text value =>
      cases drafts with
      | nil => cases hnext
      | cons first rest =>
        cases hnext
        cases next with
        | text value => exact htext _ _ _ rfl rfl
        | element tag attributes children => cases hends.2
        | raw markup => cases hends.2
    | element tag attributes children => cases hends.1
    | raw markup => cases hends.1

theorem apartInside_joinOnto (hdraft : TextsApart draft.children) (h : ApartInside drafts) :
    ApartInside (joinOnto draft drafts) := by
  unfold joinOnto
  split
  · exact List.forall_mem_cons.2 ⟨textsApart_nil, (List.forall_mem_cons.1 h).2⟩
  · exact List.forall_mem_cons.2 ⟨textsApart_nil, (List.forall_mem_cons.1 h).2⟩
  · exact List.forall_mem_cons.2 ⟨hdraft, h⟩

/-- Joining takes texts apart, at the top. -/
theorem textsApart_joined (h : ApartInside drafts) : TextsApart (joined drafts) := by
  induction drafts with
  | nil => exact textsApart_nil
  | cons draft rest ih =>
    obtain ⟨hdraft, hrest⟩ := List.forall_mem_cons.1 h
    obtain ⟨happart, hinside⟩ := throughout_iff.1 (ih hrest)
    exact throughout_iff.2 ⟨apart_joinOnto happart, apartInside_joinOnto hdraft hinside⟩

/-! ### Constructs -/

theorem apartInside_leafDrafts (event : Event) : ApartInside (leafDrafts event) := by
  have hone {draft : Draft} (h : TextsApart draft.children) : ApartInside [draft] :=
    List.forall_mem_singleton.2 h
  cases event with
  | code value => exact hone (textsApart_singleton textsApart_nil)
  | footnoteReference label =>
    exact hone (textsApart_singleton (textsApart_singleton textsApart_nil))
  | taskMarker checked => cases checked <;> exact hone textsApart_nil
  | start construct => exact List.forall_mem_nil _
  | stop kind => exact List.forall_mem_nil _
  | formula value => exact List.forall_mem_nil _
  | _ => exact hone textsApart_nil

/-- A table takes heads and rows apart, which does no harm to elements. -/
theorem textsApart_table (helements : ∀ draft ∈ drafts, draft.isElement)
    (h : TextsApart drafts) :
    ApartInside (Assembly.close .table drafts) := by
  have hpart (p : Draft → Bool) : TextsApart (drafts.filter p) :=
    textsApart_of_isElement (fun draft hmem ↦ helements draft (List.mem_filter.1 hmem).1)
      fun draft hmem ↦ (throughout_iff.1 h).2 draft (List.mem_filter.1 hmem).1
  refine List.forall_mem_singleton.2 (textsApart_of_isElement ?_ ?_)
  · refine List.forall_mem_append.2 ⟨fun draft hmem ↦ ?_, ?_⟩
    · exact helements draft (List.mem_filter.1 hmem).1
    split
    · exact List.forall_mem_nil _
    · exact List.forall_mem_singleton.2 rfl
  · refine List.forall_mem_append.2 ⟨(throughout_iff.1 (hpart Assembly.isTableHead)).2, ?_⟩
    split
    · exact List.forall_mem_nil _
    · exact List.forall_mem_singleton.2 (hpart (!Assembly.isTableHead ·))

/-- What a construct becomes has no texts side by side inside. -/
theorem apartInside_close {kind : FrameKind}
    (htable : kind = .table → ∀ draft ∈ drafts, draft.isElement) (h : TextsApart drafts) :
    ApartInside (Assembly.close kind drafts) := by
  cases kind with
  | transparent => exact (throughout_iff.1 h).2
  | element tag attributes => exact List.forall_mem_singleton.2 h
  | code language => exact List.forall_mem_singleton.2 (textsApart_singleton h)
  | image attributes => exact List.forall_mem_singleton.2 textsApart_nil
  | table => exact textsApart_table (htable rfl) h
  | tableHead => exact List.forall_mem_singleton.2 (textsApart_singleton h)

/-- The drafts of what stands directly in a table are elements. -/
theorem isElement_of_mem_ofPassages {passages : List Passage}
    (h : regularAll .table passages = true) (c : Columns) :
    ∀ draft ∈ (ofPassages c passages).1, draft.isElement := by
  induction passages generalizing c with
  | nil => exact List.forall_mem_nil _
  | cons passage rest ih =>
    rw [regularAll, Bool.and_eq_true] at h
    rw [ofPassages_cons]
    refine List.forall_mem_append.2 ⟨?_, ih h.2 _⟩
    cases passage with
    | leaf event isLeaf => cases h.1
    | within construct contents =>
      cases construct <;> first
        | exact absurd h.1 Bool.false_ne_true
        | exact List.forall_mem_singleton.2 rfl

mutual

theorem apartInside_ofPassage {place : Passage.Place} (c : Columns) :
    ∀ {passage : Passage}, Passage.regular place passage = true →
      ApartInside (ofPassage c passage).1
  | .leaf event _, _ => apartInside_leafDrafts event
  | .within construct contents, h => by
    rw [ofPassage_within]
    obtain ⟨inside, hinside, htable⟩ : ∃ inside, regularAll inside contents = true ∧
        (c.frameKind construct = .table → inside = .table) := by
      cases construct with
      | table alignments => exact ⟨.table, (Bool.and_eq_true_iff.1 h).2, fun _ ↦ rfl⟩
      | list start =>
        refine ⟨_, (Bool.and_eq_true_iff.1 h).2, fun hkind ↦ ?_⟩
        cases start <;> cases hkind
      | _ => exact ⟨_, (Bool.and_eq_true_iff.1 h).2, nofun⟩
    refine apartInside_close (fun hkind ↦ ?_) (textsApart_joined (apartInside_ofPassages _ hinside))
    obtain rfl := htable hkind
    have helements := isElement_of_mem_ofPassages hinside (c.opened construct)
    rwa [joined_of_forall_isElement helements]

/-- Regular passages become drafts without texts side by side inside. -/
theorem apartInside_ofPassages {place : Passage.Place} (c : Columns) :
    ∀ {passages : List Passage}, regularAll place passages = true →
      ApartInside (ofPassages c passages).1
  | [], _ => List.forall_mem_nil _
  | passage :: rest, h => by
    rw [regularAll, Bool.and_eq_true] at h
    rw [ofPassages_cons]
    exact List.forall_mem_append.2
      ⟨apartInside_ofPassage c h.1, apartInside_ofPassages _ h.2⟩

end

/-- The drafts of a Markdown text have no texts side by side. -/
theorem textsApart_ofEvents {limit : Nat} {options : CompileOptions} {text : String}
    (h : ofEvents limit (Markdown.events options text) = .ok drafts) : TextsApart drafts := by
  obtain ⟨passages, hregular, hevents⟩ := Markdown.reads_events options text
  rw [← hevents, ofEvents_eventsAll] at h
  split at h
  · cases h
    exact textsApart_joined (apartInside_ofPassages _ hregular)
  · cases h

/-! ## Pieces in place of stand-ins -/

/-- Pieces that are no texts, without texts side by side inside. -/
def AreApart (pieces : List Node) : Prop :=
  ∀ piece ∈ pieces, piece.isText = false ∧ Node.TextsApart piece.children

theorem textsApart_of_kinds {nodes nodes' : List Node}
    (hkinds : List.Forall₂ (fun a b ↦ a.isText = b.isText) nodes nodes')
    (hinside : ∀ node ∈ nodes', Node.TextsApart node.children) (h : Node.TextsApart nodes) :
    Node.TextsApart nodes' :=
  throughout_iff.2 ⟨(Apart.congr hkinds).1 (throughout_iff.1 h).1, hinside⟩

mutual

theorem Grafted.textsApart {pieces : List Node} (hpieces : AreApart pieces)
    {placed placed' : List Nat} {node node' : Node} :
    Grafted pieces placed node node' placed' → Node.TextsApart node.children →
      node.isText = node'.isText ∧ Node.TextsApart node'.children
  | .place _ _ hpiece, _ => by
    obtain ⟨htext, hinside⟩ := hpieces _ (List.mem_of_getElem? hpiece)
    exact ⟨htext.symm, hinside⟩
  | .element _ hchildren, h => by
    obtain ⟨hkinds, hinside⟩ :=
      GraftedAll.forall_textsApart hpieces hchildren (throughout_iff.1 h).2
    exact ⟨rfl, textsApart_of_kinds hkinds hinside h⟩
  | .root hchildren, h => by
    obtain ⟨hkinds, hinside⟩ :=
      GraftedAll.forall_textsApart hpieces hchildren (throughout_iff.1 h).2
    exact ⟨rfl, textsApart_of_kinds hkinds hinside h⟩
  | .text, h => ⟨rfl, h⟩

theorem GraftedAll.forall_textsApart {pieces : List Node} (hpieces : AreApart pieces)
    {placed placed' : List Nat} {nodes nodes' : List Node} :
    GraftedAll pieces placed nodes nodes' placed' →
      (∀ node ∈ nodes, Node.TextsApart node.children) →
        List.Forall₂ (fun a b ↦ a.isText = b.isText) nodes nodes' ∧
          ∀ node ∈ nodes', Node.TextsApart node.children
  | .nil, h => ⟨.nil, h⟩
  | .cons hnode hrest, h => by
    obtain ⟨hfirst, hothers⟩ := List.forall_mem_cons.1 h
    obtain ⟨hkind, hinside⟩ := Grafted.textsApart hpieces hnode hfirst
    obtain ⟨hkinds, hinsides⟩ := GraftedAll.forall_textsApart hpieces hrest hothers
    exact ⟨.cons hkind hkinds, List.forall_mem_cons.2 ⟨hinside, hinsides⟩⟩

end

/-- Elements in place of other elements bring no texts together. -/
theorem GraftedAll.textsApart {pieces : List Node} (hpieces : AreApart pieces)
    {placed placed' : List Nat} {nodes nodes' : List Node}
    (hgrafted : GraftedAll pieces placed nodes nodes' placed') (h : Node.TextsApart nodes) :
    Node.TextsApart nodes' := by
  obtain ⟨hkinds, hinside⟩ := hgrafted.forall_textsApart hpieces (throughout_iff.1 h).2
  exact textsApart_of_kinds hkinds hinside h

/-! ## Lowering -/

/-- Each list of siblings with raw markup is compiled to nodes whose texts stay apart. -/
def FragmentsApart (limit : Nat) (drafts : List Draft) : Prop :=
  Throughout children (fun siblings ↦ (∃ draft ∈ siblings, draft.isRaw) →
    ∀ nodes, Html.compileFragment limit (String.ofList (fragment 0 siblings)) = .ok nodes →
      Node.TextsApart nodes) drafts

/-- What lowering keeps of the texts in a draft. -/
abbrev KeepsTexts (draft : Draft) (node : Node) : Prop :=
  draft.isText = node.isText ∧ Node.TextsApart node.children

/-- What each relation of two lists gives holds throughout the second. -/
theorem forall_mem_of_forall₂ {α β : Type} {related : α → β → Prop} {holds : β → Prop}
    {first : List α} {second : List β} (h : List.Forall₂ related first second)
    (himp : ∀ a ∈ first, ∀ b, related a b → holds b) : ∀ b ∈ second, holds b := by
  induction h with
  | nil => exact List.forall_mem_nil _
  | cons hab _ ih =>
    obtain ⟨ha, hothers⟩ := List.forall_mem_cons.1 himp
    exact List.forall_mem_cons.2 ⟨ha _ hab, ih hothers⟩

theorem forall₂_keepsTexts {limit : Nat} {related : List Draft} {nodes : List Node}
    (h : List.Forall₂ (Lowered limit) related nodes)
    (heach : ∀ draft ∈ related, ∀ node, Lowered limit draft node → KeepsTexts draft node) :
    List.Forall₂ KeepsTexts related nodes :=
  ((List.forall₂_and_left _ _).2 ⟨heach, h⟩).imp fun _ _ hboth ↦ hboth.1 _ hboth.2

theorem textsApart_of_forall₂_keepsTexts {nodes : List Node} (h : Apart isText drafts)
    (hkept : List.Forall₂ KeepsTexts drafts nodes) : Node.TextsApart nodes :=
  throughout_iff.2 ⟨(Apart.congr (hkept.imp fun _ _ ↦ And.left)).1 h,
    forall_mem_of_forall₂ hkept fun _ _ _ ↦ And.right⟩

theorem areApart_of_forall₂_keepsTexts {pieces : List Node}
    (h : List.Forall₂ KeepsTexts drafts pieces) (helements : ∀ draft ∈ drafts, draft.isElement) :
    AreApart pieces := by
  refine forall_mem_of_forall₂ h fun draft hmem piece hkeeps ↦ ⟨?_, hkeeps.2⟩
  exact hkeeps.1 ▸ isText_eq_false (helements draft hmem)

theorem textsApart_of_loweredAll_of_forall {limit : Nat} {nodes : List Node}
    (hlowered : LoweredAll limit drafts nodes) (h : Apart isText drafts)
    (hfragments : FragmentsApart limit drafts)
    (heach : ∀ draft ∈ drafts, ∀ node, Lowered limit draft node → KeepsTexts draft node) :
    Node.TextsApart nodes := by
  cases hlowered with
  | plain _ hrelated => exact textsApart_of_forall₂_keepsTexts h (forall₂_keepsTexts hrelated heach)
  | mixed hraw hrelated hparsed hgrafted _ =>
    refine hgrafted.textsApart (areApart_of_forall₂_keepsTexts (forall₂_keepsTexts hrelated ?_) ?_)
      (hfragments _ .top hraw _ hparsed)
    · exact fun draft hmem ↦ heach draft (List.mem_filter.1 hmem).1
    · exact fun draft hmem ↦ (List.mem_filter.1 hmem).2

mutual

theorem keepsTexts_of_lowered {limit : Nat} : ∀ draft : Draft, TextsApart draft.children →
    FragmentsApart limit draft.children → ∀ node, Lowered limit draft node → KeepsTexts draft node
  | .text _, _, _, _, .text => ⟨rfl, Node.textsApart_nil⟩
  | .element _ _ inner, h, hfragments, _, .element hlowered => by
    refine ⟨rfl, textsApart_of_loweredAll_of_forall hlowered (throughout_iff.1 h).1 hfragments ?_⟩
    exact forall_keepsTexts_of_lowered inner (throughout_iff.1 h).2 (throughout_iff.1 hfragments).2

theorem forall_keepsTexts_of_lowered {limit : Nat} : ∀ drafts : List Draft, ApartInside drafts →
    (∀ draft ∈ drafts, FragmentsApart limit draft.children) →
      ∀ draft ∈ drafts, ∀ node, Lowered limit draft node → KeepsTexts draft node
  | [], _, _ => List.forall_mem_nil _
  | first :: rest, h, hfragments => by
    rw [ApartInside, List.forall_mem_cons] at h
    rw [List.forall_mem_cons] at hfragments
    exact List.forall_mem_cons.2 ⟨keepsTexts_of_lowered first h.1 hfragments.1,
      forall_keepsTexts_of_lowered rest h.2 hfragments.2⟩

end

/-- Lowering brings no texts together, if compiling its fragments does not. -/
theorem textsApart_of_lowerAll {limit : Nat} {nodes : List Node}
    (hlowered : lowerAll limit drafts = .ok nodes) (h : TextsApart drafts)
    (hfragments : FragmentsApart limit drafts) : Node.TextsApart nodes :=
  textsApart_of_loweredAll_of_forall (loweredAll_iff.2 hlowered) (throughout_iff.1 h).1 hfragments
    (forall_keepsTexts_of_lowered drafts (throughout_iff.1 h).2 (throughout_iff.1 hfragments).2)

/-- Each list of siblings with raw markup is parsed without comments that stand alone between two
texts. -/
def NoneBridged (drafts : List Draft) : Prop :=
  Throughout children (fun siblings ↦ (∃ draft ∈ siblings, draft.isRaw) →
    Throughout Html.HtmlNode.children (¬Bridged Html.HtmlNode.isText Html.HtmlNode.isShown ·)
      (Html.parseFragment (String.ofList (fragment 0 siblings)))) drafts

theorem NoneBridged.fragmentsApart (h : NoneBridged drafts) (limit : Nat) :
    FragmentsApart limit drafts :=
  h.mono fun _ hsiblings hraw _ hok ↦
    (Html.textsApart_iff_of_compileFragment hok).2 (hsiblings hraw)

/-- Checks lists of siblings, and what their raw markup is parsed to, up to a depth. -/
def checkNoneBridged (depth : Nat) (drafts : List Draft) : Bool :=
  checkThroughout children (fun siblings ↦ !siblings.any isRaw ||
    checkThroughout Html.HtmlNode.children
      (fun nodes ↦ decide (Apart Html.HtmlNode.isText (nodes.filter Html.HtmlNode.isShown)))
      depth (Html.parseFragment (String.ofList (fragment 0 siblings)))) depth drafts

theorem noneBridged_of_check {depth : Nat} (h : checkNoneBridged depth drafts = true) :
    NoneBridged drafts := by
  refine (throughout_of_checkThroughout h).mono fun siblings hsiblings hraw ↦ ?_
  rw [List.any_eq_true.2 hraw, Bool.not_true, Bool.false_or] at hsiblings
  refine (throughout_of_checkThroughout hsiblings).mono fun nodes hnodes ↦ ?_
  exact ((apart_filter_iff fun _ ↦ Html.HtmlNode.isShown_of_isText).1 (of_decide_eq_true hnodes)).2

end Draft

/-! ## Compiled prose -/

/-- In compiled prose no two texts stand next to each other, unless raw markup has a comment, and
nothing else, between two texts. -/
theorem compileProse_texts_apart {options : CompileOptions} {text body : String} {prose : Prose}
    {frontmatter : Frontmatter} {drafts : List Draft} (hok : compileProse options text = .ok prose)
    (hsplit : Prose.splitFrontmatter options text = .ok (frontmatter, body))
    (hdrafts : Draft.ofEvents options.maxNestingDepth (Markdown.events options body) = .ok drafts)
    (hbridged : Draft.NoneBridged drafts) :
    ∀ siblings, IsSiblings Node.children prose.nodes siblings →
      ∀ before a b after, siblings ≠ before ++ Node.text a :: Node.text b :: after := by
  obtain ⟨found, hfound, hok⟩ := Outcome.bind_eq_ok.1 hok
  cases hsplit.symm.trans hfound
  obtain ⟨drafts', hdrafts', hok⟩ := Outcome.bind_eq_ok.1 hok
  cases hdrafts.symm.trans hdrafts'
  obtain ⟨nodes, hnodes, hprose⟩ := Outcome.bind_eq_ok.1 hok
  cases hprose
  have happart : Node.TextsApart nodes :=
    Draft.textsApart_of_lowerAll hnodes (Draft.textsApart_ofEvents hdrafts)
      (hbridged.fragmentsApart _)
  intro siblings hsiblings before a b after heq
  exact Apart.iff_forall_ne_append.1 (happart siblings hsiblings) before _ _ after heq ⟨rfl, rfl⟩

/-- A comment stands between a text and an element. -/
def commentBesideElement : String := "a *b*\n\n<div>c<!--d--><b>e</b></div>"

theorem compileProse_texts_apart_commentBesideElement :
    ∃ prose drafts, compileProse { maxNestingDepth := 4 } commentBesideElement = .ok prose ∧
      Draft.ofEvents 4 (Markdown.events { maxNestingDepth := 4 } commentBesideElement) =
        .ok drafts ∧
      drafts.any Draft.isRaw = true ∧ Draft.NoneBridged drafts ∧
      ∀ siblings, IsSiblings Node.children prose.nodes siblings →
        ∀ before a b after, siblings ≠ before ++ Node.text a :: Node.text b :: after := by
  have hisOk : (compileProse { maxNestingDepth := 4 } commentBesideElement).isOk = true := by
    decide +kernel
  have hnone : splitMetadata? commentBesideElement.toList = none := by decide +kernel
  have hchecked : ((Draft.ofEvents 4 (Markdown.events { maxNestingDepth := 4 }
      commentBesideElement)).toOption.map fun drafts ↦
        (drafts.any Draft.isRaw, Draft.checkNoneBridged 9 drafts)) = some (true, true) := by
    decide +kernel
  have hsplit : Prose.splitFrontmatter { maxNestingDepth := 4 } commentBesideElement =
      .ok (.empty, commentBesideElement) := by
    rw [Prose.splitFrontmatter, hnone]
    rfl
  obtain ⟨prose, hok⟩ := Outcome.exists_eq_ok hisOk
  obtain ⟨drafts, hfound, hpair⟩ := Option.map_eq_some_iff.1 hchecked
  have hdrafts := Outcome.eq_ok_of_toOption hfound
  obtain ⟨hraw, hcheck⟩ := Prod.mk.inj hpair
  have hbridged := Draft.noneBridged_of_check hcheck
  exact ⟨prose, drafts, hok, hdrafts, hraw, hbridged,
    compileProse_texts_apart hok hsplit hdrafts hbridged⟩

/-- A comment between two texts leaves two texts side by side. -/
theorem not_compileProse_texts_apart :
    ¬∀ (options : CompileOptions) (text : String) (prose : Prose),
      compileProse options text = .ok prose →
        ∀ siblings, IsSiblings Node.children prose.nodes siblings →
          ∀ before a b after, siblings ≠ before ++ Node.text a :: Node.text b :: after := by
  intro h
  have hkinds : (compileProse { maxNestingDepth := 4 } "<div>a<!--c-->b</div>").toOption.map
      (fun prose ↦ prose.nodes.map fun node ↦ node.children.map Node.isText) =
        some [[true, true]] := by
    decide +kernel
  obtain ⟨prose, hfound, hnodes⟩ := Option.map_eq_some_iff.1 hkinds
  have hok := Outcome.eq_ok_of_toOption hfound
  obtain ⟨node, rest, hnodes, hnode, -⟩ := List.map_eq_cons_iff.1 hnodes
  have hsiblings : IsSiblings Node.children prose.nodes node.children :=
    .inside .top (hnodes ▸ List.mem_cons_self)
  obtain ⟨first, others, hfirst, hisText, hothers⟩ := List.map_eq_cons_iff.1 hnode
  obtain ⟨second, _, rfl, hisText', -⟩ := List.map_eq_cons_iff.1 hothers
  obtain ⟨a, rfl⟩ := Node.exists_eq_text hisText
  obtain ⟨b, rfl⟩ := Node.exists_eq_text hisText'
  exact h _ _ prose hok node.children hsiblings [] a b _ hfirst

end NotebookTree
