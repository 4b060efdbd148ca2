import NotebookTree.Proofs.Html.Fragment
import NotebookTree.Proofs.Prose.Conservation

/-!
# Text among raw tags

Raw markup among siblings is resolved by reading all of them as one fragment of HTML. Text is
escaped for that, and elements are written as stand-ins. `Draft.textContents_of_lowerAll` says when
this keeps the text: each piece of raw markup is one tag, no opening tag is one of
`Html.alteringTags`, and no text next to raw markup holds a character that HTML changes.

Inside an altering tag an escaped text is not read back, so single tags alone are not enough:
`Draft.not_textContents_of_haveTags`.
-/

namespace NotebookTree

open Outcome
open Html (Token Builder alteringTags normalizeLineEnds)

namespace Draft

/-! ## Harmless drafts -/

/-- The only token of markup, if that is an opening tag or an end tag. -/
def singleTag? (markup : String) : Option Token :=
  match Token.readMarkup false (normalizeLineEnds markup.toList) with
  | ([token], []) => (some token).filter Token.isTag
  | _ => none

/-- Does a tag leave the text around it alone? -/
def isHarmlessTag : Token → Bool
  | .startTag tag => tag.name ∉ alteringTags
  | _ => true

/-- Is it an element, a harmless tag, or a text without null characters and carriage returns? -/
def isHarmless : Draft → Bool
  | text value => value.toList.all fun c ↦ c != '\x00' && c != '\r'
  | raw markup => (singleTag? markup).any isHarmlessTag
  | element .. => true

/-- Are siblings harmless, if there is raw markup among them? Their fragment may not start with a
byte order mark, which would be dropped. -/
def areHarmless (drafts : List Draft) : Bool :=
  !drafts.any isRaw || (drafts.all isHarmless && (fragment 0 drafts).head? != some '\ufeff')

mutual

/-- Are the siblings below a draft harmless at every level? -/
def isHarmlessBelow : Draft → Bool
  | element _ _ children => areHarmless children && areHarmlessBelow children
  | _ => true

/-- Are the siblings below drafts harmless at every level? -/
def areHarmlessBelow : List Draft → Bool
  | [] => true
  | draft :: rest => isHarmlessBelow draft && areHarmlessBelow rest

end

/-! ## Reading the fragment -/

/-- The marks of a fragment of siblings, whose stand-ins count from `index`. -/
def marks (index : Nat) : List Draft → List Mark
  | [] => []
  | raw _ :: rest => marks index rest
  | text value :: rest => value.toList.map .char ++ marks index rest
  | element .. :: rest => .standIn (some index) :: marks (index + 1) rest

/-- A single tag is written so that it is read as one token. -/
theorem written_of_singleTag? {markup : String} {token : Token}
    (h : singleTag? markup = some token) :
    Token.Written token (normalizeLineEnds markup.toList) := by
  unfold singleTag? at h
  split at h
  · next found heq =>
    obtain ⟨hfound, htag⟩ := Option.filter_eq_some_iff.1 h
    cases hfound
    exact .of_readMarkup_eq htag heq
  · cases h

/-- A harmless tag is accepted without a change of the marks. -/
theorem steady_accept_of_written {cs : List Char} {token : Token}
    (hwritten : Token.Written token cs) (h : isHarmlessTag token = true) {ms : List Mark}
    {b : Builder} (hsteady : b.Steady .forStandIns .body ms) :
    (b.accept token).Steady .forStandIns .body ms := by
  cases hwritten with
  | @start _ _ tag =>
    exact hsteady.accept_startTag (.of_not_mem (of_decide_eq_true h) rfl)
      (Builder.treatsAsBody_body _)
  | @stop _ _ tag => exact hsteady.accept_endTag (Builder.treatsAsBody_body _)

theorem normalizeLineEnds_standIn (index : Nat) (more : List Char) :
    normalizeLineEnds (standIn index ++ more) = standIn index ++ normalizeLineEnds more :=
  Html.normalizeLineEnds_append_of_not_mem (Token.return_not_mem_standIn index) more

/-- A text is joined to the text that is waiting before it. -/
theorem escapeText_append_normalizeLineEnds {pending value : List Char} (h : '\r' ∉ value)
    (more : List Char) :
    Node.escapeText pending ++ normalizeLineEnds (Node.escapeText value ++ more) =
      Node.escapeText (pending ++ value) ++ normalizeLineEnds more := by
  have hreturn : '\r' ∉ Node.escapeText value := by
    intro hmem
    rcases Token.of_mem_escapeText hmem with ⟨hvalue, -⟩ | hname
    · exact h hvalue
    · revert hname
      decide
  rw [Html.normalizeLineEnds_append_of_not_mem hreturn, ← List.append_assoc]
  exact congrArg (· ++ _) List.flatMap_append.symm

/-- Reading the fragment of siblings adds their marks. The text that is pending was read before
them, and may go on. -/
theorem steady_readAll_fragment {drafts : List Draft}
    (hdrafts : ∀ draft ∈ drafts, draft.isHarmless) {index limit : Nat} {ms : List Mark}
    {b : Builder} {pending : List Char} (hsteady : b.Steady .forStandIns .body ms)
    (hpending : '\x00' ∉ pending)
    (hlimit : (Node.escapeText pending ++
      normalizeLineEnds (fragment index drafts)).length < limit) :
    (b.readAll limit (Node.escapeText pending ++
      normalizeLineEnds (fragment index drafts))).Steady .forStandIns .body
        (ms ++ (pending.map .char ++ marks index drafts)) := by
  induction drafts generalizing index limit ms b pending with
  | nil =>
    obtain ⟨limit', b', -, hsteady', hread⟩ :=
      hsteady.exists_readAll_escapeText (Builder.treatsAsBody_body _) hpending (.inl rfl) hlimit
    have hend : b'.readAll limit' [] = b' := by cases limit' <;> rfl
    rw [fragment, marks, List.append_nil]
    rw [normalizeLineEnds, hread, hend]
    exact hsteady'
  | cons draft rest ih =>
    obtain ⟨hdraft, hrest⟩ := List.forall_mem_cons.1 hdrafts
    -- After a tag no text is pending.
    have ihTag {index limit : Nat} {ms : List Mark} {b : Builder}
        (hsteady : b.Steady .forStandIns .body ms)
        (hlimit : (normalizeLineEnds (fragment index rest)).length < limit) :
        (b.readAll limit (normalizeLineEnds (fragment index rest))).Steady .forStandIns .body
          (ms ++ marks index rest) :=
      ih hrest hsteady List.not_mem_nil hlimit
    cases draft with
    | text value =>
      have hplain : '\x00' ∉ value.toList ∧ '\r' ∉ value.toList := by
        simp only [isHarmless, List.all_eq_true, Bool.and_eq_true, bne_iff_ne] at hdraft
        exact ⟨fun hmem ↦ (hdraft _ hmem).1 rfl, fun hmem ↦ (hdraft _ hmem).2 rfl⟩
      have hnull : '\x00' ∉ pending ++ value.toList := by
        rw [List.mem_append, not_or]
        exact ⟨hpending, hplain.1⟩
      rw [fragment, escapeText_append_normalizeLineEnds hplain.2] at hlimit ⊢
      have hmore := ih hrest hsteady hnull hlimit
      rwa [List.map_append, List.append_assoc] at hmore
    | raw markup =>
      obtain ⟨token, htoken, hharmless⟩ := (Option.any_eq_true _ _).1 hdraft
      have hwritten := written_of_singleTag? htoken
      rw [fragment, Html.normalizeLineEnds_append hwritten.getLast?_ne] at hlimit ⊢
      obtain ⟨limit', b', hlimit', hsteady', hread⟩ :=
        hsteady.exists_readAll_escapeText_tag (Builder.treatsAsBody_body _) hpending hwritten hlimit
      rw [hread, marks, ← List.append_assoc]
      exact ihTag (steady_accept_of_written hwritten hharmless hsteady') hlimit'
    | element tag attributes children =>
      rw [fragment, normalizeLineEnds_standIn, standIn, List.append_assoc] at hlimit ⊢
      obtain ⟨limit₁, b', hlimit₁, hsteady', hread₁⟩ :=
        hsteady.exists_readAll_escapeText_tag (Builder.treatsAsBody_body _) hpending
          (Token.written_openTag index) hlimit
      obtain ⟨hreading, hclosed⟩ := hsteady'.accept_standIn index
      obtain ⟨limit₂, hlimit₂, hread₂⟩ :=
        Builder.exists_readAll_tag hreading Token.written_closeTag hlimit₁
      have hmarks :
          ms ++ (pending.map .char ++ marks index (.element tag attributes children :: rest)) =
            ms ++ pending.map .char ++ [.standIn (some index)] ++ marks (index + 1) rest := by
        simp only [marks, List.append_assoc, List.singleton_append]
      rw [hread₁, hread₂, hmarks]
      exact ihTag hclosed hlimit₂

end Draft

/-! ## Marks in order -/

namespace Mark

/-- The characters of a mark, if a stand-in has those of the piece with its index. -/
def chars (pieces : List Node) : Mark → List Char
  | char c => [c]
  | standIn index => ((index.bind (pieces[·]?)).map fun piece ↦ piece.textContent.toList).getD []

theorem flatMap_chars_map_char (pieces : List Node) (cs : List Char) :
    (cs.map char).flatMap (chars pieces) = cs := by
  rw [List.flatMap_map]
  exact List.flatMap_singleton' cs

/-- The indices of the stand-ins among marks count from the first number up to the second. -/
inductive Counting : Nat → List Mark → Nat → Prop where
  | nil {first : Nat} : Counting first [] first
  | char {c : Char} {ms : List Mark} {first last : Nat} :
      Counting first ms last → Counting first (.char c :: ms) last
  | standIn {ms : List Mark} {first last : Nat} :
      Counting (first + 1) ms last → Counting first (.standIn (some first) :: ms) last

theorem Counting.le {ms : List Mark} {first last : Nat} (h : Counting first ms last) :
    first ≤ last := by
  induction h with
  | nil => exact Nat.le_refl _
  | char _ ih => exact ih
  | standIn _ ih => exact Nat.le_of_succ_le ih

theorem Counting.of_append {before after : List Mark} {first last : Nat}
    (h : Counting first (before ++ after) last) :
    ∃ middle, Counting first before middle ∧ Counting middle after last := by
  induction before generalizing first with
  | nil => exact ⟨first, .nil, h⟩
  | cons mark rest ih =>
    cases h with
    | char h =>
      obtain ⟨middle, hrest, hafter⟩ := ih h
      exact ⟨middle, .char hrest, hafter⟩
    | standIn h =>
      obtain ⟨middle, hrest, hafter⟩ := ih h
      exact ⟨middle, .standIn hrest, hafter⟩

theorem counting_map_char {ms : List Mark} {first last : Nat} (h : Counting first ms last)
    (cs : List Char) : Counting first (cs.map .char ++ ms) last := by
  induction cs with
  | nil => exact h
  | cons c rest ih => exact .char ih

end Mark

namespace Draft

open Mark (Counting)

theorem counting_marks (drafts : List Draft) (index : Nat) :
    Counting index (marks index drafts) (index + (drafts.filter isElement).length) := by
  induction drafts generalizing index with
  | nil => exact .nil
  | cons draft rest ih =>
    cases draft with
    | text value => exact Mark.counting_map_char (ih index) _
    | raw markup => exact ih index
    | element tag attributes children =>
      have hlength : index + ((element tag attributes children :: rest).filter isElement).length =
          index + 1 + (rest.filter isElement).length := by
        rw [List.filter_cons_of_pos rfl, List.length_cons]
        omega
      rw [hlength]
      exact .standIn (ih (index + 1))

/-- The marks of siblings have the text of the siblings, if each piece has the text of its
element. -/
theorem flatMap_chars_marks {drafts : List Draft} {pieces : List Node} {index : Nat}
    (h : List.Forall₂ (fun draft node ↦ node.textContent = draft.textContent)
      (drafts.filter isElement) (pieces.drop index)) :
    (marks index drafts).flatMap (Mark.chars pieces) = (textContents drafts).toList := by
  induction drafts generalizing index with
  | nil => rfl
  | cons draft rest ih =>
    rw [textContents, String.toList_append]
    cases draft with
    | text value =>
      rw [marks, List.flatMap_append, Mark.flatMap_chars_map_char, ih h, textContent]
    | raw markup =>
      rw [marks, ih h, textContent]
      rfl
    | element tag attributes children =>
      rw [List.filter_cons_of_pos rfl] at h
      obtain ⟨piece, others, hpiece, hothers, hdrop⟩ := List.forall₂_cons_left_iff.1 h
      have hget : pieces[index]? = some piece := by
        rw [← Nat.add_zero index, ← List.getElem?_drop, hdrop]
        rfl
      have hmore : pieces.drop (index + 1) = others := by
        rw [← List.drop_drop, hdrop]
        rfl
      have hchars : Mark.chars pieces (.standIn (some index)) =
          (textContent (.element tag attributes children)).toList := by
        rw [← hpiece]
        simp [Mark.chars, hget]
      rw [marks, List.flatMap_cons, hchars, ih (hmore ▸ hothers)]

/-! ## Text of grafted nodes -/

theorem eq_standInTag_of_standInIndex? {tag : String} {attributes : Attributes} {index : Nat}
    (h : standInIndex? tag attributes = some index) : tag = standInTag := by
  unfold standInIndex? at h
  split at h
  · next htag => exact eq_of_beq htag
  · cases h

mutual

theorem Grafted.chars_textContent {pieces : List Node} {placed placed' : List Nat}
    {node node' : Node} {first last : Nat} :
    Grafted pieces placed node node' placed' → Counting first (node.marks .forStandIns) last →
      (∀ index ∈ placed, index < first) → last ≤ pieces.length →
      node'.textContent.toList = (node.marks .forStandIns).flatMap (Mark.chars pieces) ∧
        ∀ index ∈ placed', index < last
  | .place hindex _ hpiece, hcounting, hplaced, _ => by
    have hleaf := Html.Watch.isLeaf_iff.2 (eq_standInTag_of_standInIndex? hindex)
    rw [Node.marks, if_pos hleaf, hindex] at hcounting ⊢
    cases hcounting with
    | standIn hcounting =>
      cases hcounting
      refine ⟨?_, fun other hmem ↦ ?_⟩
      · simp [Mark.chars, hpiece]
      · rcases List.mem_cons.1 hmem with rfl | hmem
        · exact Nat.lt_succ_self _
        · exact Nat.lt_succ_of_lt (hplaced other hmem)
  | @Grafted.element _ _ _ tag attributes _ _ hkeep hchildren, hcounting, hplaced, hlast => by
    by_cases htag : Html.Watch.forStandIns.isLeaf tag
    · rw [Node.marks, if_pos htag] at hcounting
      -- A stand-in that is kept would be one of those in place, and these come before it.
      generalize hindex : standInIndex? tag attributes = found at hcounting
      cases hcounting with
      | standIn hcounting =>
        cases hcounting
        exact absurd (hplaced _ (hkeep _ hindex hlast)) (Nat.lt_irrefl _)
    · rw [Node.marks, if_neg htag] at hcounting ⊢
      exact GraftedAll.chars_textContents hchildren hcounting hplaced hlast
  | .root hchildren, hcounting, hplaced, hlast => by
    rw [Node.marks] at hcounting ⊢
    exact GraftedAll.chars_textContents hchildren hcounting hplaced hlast
  | .text, hcounting, hplaced, _ => by
    refine ⟨?_, fun index hmem ↦ Nat.lt_of_lt_of_le (hplaced index hmem) hcounting.le⟩
    rw [Node.marks, Mark.flatMap_chars_map_char, Node.textContent]

/-- If the stand-ins count on from those that are in place, each of them is replaced by its
piece. -/
theorem GraftedAll.chars_textContents {pieces : List Node} {placed placed' : List Nat}
    {nodes nodes' : List Node} {first last : Nat} :
    GraftedAll pieces placed nodes nodes' placed' →
      Counting first (Node.marksAll .forStandIns nodes) last →
      (∀ index ∈ placed, index < first) → last ≤ pieces.length →
      (Node.textContents nodes').toList =
        (Node.marksAll .forStandIns nodes).flatMap (Mark.chars pieces) ∧
        ∀ index ∈ placed', index < last
  | .nil, hcounting, hplaced, hlast => by
    cases hcounting
    exact ⟨rfl, hplaced⟩
  | .cons hnode hrest, hcounting, hplaced, hlast => by
    obtain ⟨middle, hfirst, hmore⟩ := hcounting.of_append
    obtain ⟨hnodeChars, hplaced'⟩ :=
      Grafted.chars_textContent hnode hfirst hplaced (Nat.le_trans hmore.le hlast)
    obtain ⟨hrestChars, hplaced''⟩ := GraftedAll.chars_textContents hrest hmore hplaced' hlast
    refine ⟨?_, hplaced''⟩
    rw [Node.textContents, String.toList_append, hnodeChars, hrestChars, Node.marksAll,
      List.flatMap_append]

end

/-! ## Text of lowered drafts -/

theorem textContents_of_forall₂ {drafts : List Draft} {nodes : List Node}
    (h : List.Forall₂ (fun draft node ↦ node.textContent = draft.textContent) drafts nodes) :
    Node.textContents nodes = textContents drafts := by
  induction h with
  | nil => rfl
  | cons hnode _ ih => rw [Node.textContents, textContents, hnode, ih]

/-- Harmless siblings with raw markup keep their text if their elements do. -/
theorem textContents_of_graftedAll {limit : Nat} {drafts : List Draft}
    {found parsed nodes : List Node} {placed : List Nat}
    (hread : ∀ draft ∈ drafts, draft.isHarmless)
    (hmark : (fragment 0 drafts).head? ≠ some '\ufeff')
    (hfound : List.Forall₂ (fun draft node ↦ node.textContent = draft.textContent)
      (drafts.filter isElement) found)
    (hparsed : Html.compileFragment limit (String.ofList (fragment 0 drafts)) = .ok parsed)
    (hgrafted : GraftedAll found [] parsed nodes placed) :
    Node.textContents nodes = textContents drafts := by
  have hsteady := steady_readAll_fragment hread Builder.steady_empty List.not_mem_nil
    (Nat.lt_succ_self (normalizeLineEnds (fragment 0 drafts)).length)
  have hmarks : Node.marksAll .forStandIns parsed = marks 0 drafts :=
    Html.marksAll_of_compileFragment hmark hsteady hparsed
  have hcounting := counting_marks drafts 0
  rw [hfound.length_eq, Nat.zero_add, ← hmarks] at hcounting
  have hchars := (hgrafted.chars_textContents hcounting (by simp) (Nat.le_refl _)).1
  rw [hmarks, flatMap_chars_marks hfound] at hchars
  exact String.toList_injective hchars

theorem forall₂_textContent {limit : Nat} {drafts : List Draft} {nodes : List Node}
    (h : ∀ draft ∈ drafts, ∀ node, lower limit draft = .ok node →
      node.textContent = draft.textContent)
    (hnodes : List.Forall₂ (fun draft node ↦ lower limit draft = .ok node) drafts nodes) :
    List.Forall₂ (fun draft node ↦ node.textContent = draft.textContent) drafts nodes :=
  ((List.forall₂_and_left _ _).2 ⟨h, hnodes⟩).imp fun _ _ hboth ↦ hboth.1 _ hboth.2

theorem textContents_of_forall_mem {limit : Nat} {drafts : List Draft} {nodes : List Node}
    (hread : areHarmless drafts = true)
    (h : ∀ draft ∈ drafts, ¬draft.isRaw → ∀ node, lower limit draft = .ok node →
      node.textContent = draft.textContent)
    (hnodes : lowerAll limit drafts = .ok nodes) :
    Node.textContents nodes = textContents drafts := by
  by_cases hraw : ∃ draft ∈ drafts, draft.isRaw
  · obtain ⟨found, parsed, placed, hfound, hparsed, hgrafted, -⟩ :=
      (lowerAll_mixed_iff hraw).1 hnodes
    have hany : drafts.any isRaw = true := by simpa using hraw
    simp only [areHarmless, hany, Bool.not_true, Bool.false_or, Bool.and_eq_true,
      List.all_eq_true, bne_iff_ne] at hread
    have helements (draft : Draft) (hmem : draft ∈ drafts.filter isElement) :=
      h draft (not_isRaw_of_mem_filter hmem).1 (not_isRaw_of_mem_filter hmem).2
    exact textContents_of_graftedAll hread.1 hread.2 (forall₂_textContent helements hfound)
      hparsed hgrafted
  · have hplain : ∀ draft ∈ drafts, ¬draft.isRaw := fun draft hmem hisRaw ↦
      hraw ⟨draft, hmem, hisRaw⟩
    refine textContents_of_forall₂ (forall₂_textContent (fun draft hmem ↦ ?_)
      ((lowerAll_plain_iff hplain).1 hnodes))
    exact h draft hmem (hplain draft hmem)

mutual

theorem textContent_of_lower (limit : Nat) :
    ∀ draft, isHarmlessBelow draft = true → ¬draft.isRaw →
      ∀ node, lower limit draft = .ok node → node.textContent = draft.textContent
  | .text value, _, _, node, h => by
    cases h
    rfl
  | .raw markup, _, hisRaw, _, _ => absurd rfl hisRaw
  | .element tag attributes children, hbelow, _, node, h => by
    rw [isHarmlessBelow, Bool.and_eq_true] at hbelow
    obtain ⟨nodes, hnodes, rfl⟩ := lower_element_eq_ok_iff.1 h
    have hchildren := forall_mem_textContent limit children hbelow.2
    exact textContents_of_forall_mem hbelow.1 hchildren hnodes

theorem forall_mem_textContent (limit : Nat) :
    ∀ drafts, areHarmlessBelow drafts = true → ∀ draft ∈ drafts, ¬draft.isRaw →
      ∀ node, lower limit draft = .ok node → node.textContent = draft.textContent
  | [], _ => by simp
  | first :: rest, hbelow => by
    rw [areHarmlessBelow, Bool.and_eq_true] at hbelow
    have hfirst := textContent_of_lower limit first hbelow.1
    have hrest := forall_mem_textContent limit rest hbelow.2
    intro draft hmem
    rcases List.mem_cons.1 hmem with rfl | hmem
    · exact hfirst
    · exact hrest draft hmem

end

/-- If siblings are harmless at every level, lowering keeps their text, character for character. -/
theorem textContents_of_lowerAll {limit : Nat} {drafts : List Draft} {nodes : List Node}
    (hread : areHarmless drafts = true) (hbelow : areHarmlessBelow drafts = true)
    (hnodes : lowerAll limit drafts = .ok nodes) :
    Node.textContents nodes = textContents drafts :=
  textContents_of_forall_mem hread (forall_mem_textContent limit drafts hbelow) hnodes

/-- A comparison between bold tags, next to emphasis. -/
def boldComparison : List Draft :=
  [.raw "<b>", .text "1 < 2", .ofTag "em" [.text "x"], .raw "</b>"]

theorem textContents_of_lowerAll_boldComparison :
    ∃ nodes, areHarmless boldComparison = true ∧ areHarmlessBelow boldComparison = true ∧
      lowerAll 2 boldComparison = .ok nodes ∧ Node.textContents nodes = "1 < 2x" := by
  have hread : areHarmless boldComparison = true := by decide +kernel
  have hbelow : areHarmlessBelow boldComparison = true := by decide
  have hok : (lowerAll 2 boldComparison).isOk = true := by decide +kernel
  obtain ⟨nodes, hnodes⟩ := exists_eq_ok hok
  exact ⟨nodes, hread, hbelow, hnodes, textContents_of_lowerAll hread hbelow hnodes⟩

/-! ## Altering tags -/

mutual

/-- Is each piece of raw markup of a draft a single tag? -/
def hasTags : Draft → Bool
  | text _ => true
  | raw markup => (singleTag? markup).isSome
  | element _ _ children => haveTags children

/-- Is each piece of raw markup of drafts a single tag? -/
def haveTags : List Draft → Bool
  | [] => true
  | draft :: rest => hasTags draft && haveTags rest

end

/-- A comparison between the tags of a style sheet. -/
def styledComparison : List Draft :=
  [.text "a ", .raw "<style>", .text "1 < 2", .raw "</style>"]

/-- Single tags do not always keep the text: in a style sheet the escaped text is not read back. -/
theorem not_textContents_of_haveTags :
    ¬∀ (limit : Nat) (drafts : List Draft) (nodes : List Node), drafts.any isRaw = true →
      haveTags drafts = true → lowerAll limit drafts = .ok nodes →
        Node.textContents nodes = textContents drafts := by
  intro h
  have htags : haveTags styledComparison = true := by decide +kernel
  have htext : (lowerAll 2 styledComparison).toOption.map Node.textContents =
      some "a 1 &lt; 2" := by
    decide +kernel
  have hok : (lowerAll 2 styledComparison).isOk = true := by decide +kernel
  obtain ⟨nodes, hnodes⟩ := exists_eq_ok hok
  have hkept := h 2 styledComparison nodes rfl htags hnodes
  rw [hnodes] at htext
  exact absurd (hkept.symm.trans (Option.some.inj htext)) (by decide)

end Draft

end NotebookTree
