import NotebookTree.Markdown.Document
import NotebookTree.Proofs.Prose.Meaning

/-!
# Markdown texts are regular

The events of a Markdown text are those of passages in which tables hold nothing but heads and rows,
and rows nothing but cells: `Markdown.reads_events`. Running text has no part of a table in it, as
`Piece.IsPlain` and `Phrasing.IsPlain` keep from the items of a text to its inlines.
-/

namespace NotebookTree.Markdown

open Passage (regularAll)

/-! ## Events at a place -/

/-- Events of passages that are regular at a place. -/
def Reads (place : Passage.Place) (events : List Event) : Prop :=
  ∃ passages, regularAll place passages = true ∧ Passage.eventsAll passages = events

namespace Reads

variable {place : Passage.Place} {events more : List Event}

theorem nil : Reads place [] := ⟨[], rfl, rfl⟩

theorem append (h : Reads place events) (hmore : Reads place more) :
    Reads place (events ++ more) := by
  obtain ⟨passages, hpassages, rfl⟩ := h
  induction passages with
  | nil => exact hmore
  | cons passage rest ih =>
    rw [regularAll, Bool.and_eq_true] at hpassages
    obtain ⟨others, hothers, heq⟩ := ih hpassages.2
    refine ⟨passage :: others, ?_, ?_⟩
    · rw [regularAll, hpassages.1, hothers]
      rfl
    · rw [Passage.eventsAll, heq, Passage.eventsAll, List.append_assoc]

theorem ofPassage (passage : Passage) (h : Passage.regular place passage = true) :
    Reads place passage.events := by
  refine ⟨[passage], ?_, List.append_nil _⟩
  rw [regularAll, h]
  rfl

theorem leaf {event : Event} (hplace : place ≠ .table) (h : event.isLeaf = true) :
    Reads place [event] :=
  ofPassage (.leaf event h) (bne_iff_ne.2 hplace)

/-- A construct that is no part of a table. -/
theorem around {construct : Construct} (hconstruct : construct.isTablePart = false)
    (hplace : place ≠ .table) (h : Reads (if place = .outside then .outside else .cell) events) :
    Reads place (construct.around events) := by
  obtain ⟨passages, hpassages, rfl⟩ := h
  refine ofPassage (.within construct passages) ?_
  have hregular : (place != .table &&
      regularAll (if place = .outside then .outside else .cell) passages) = true := by
    rw [hpassages, Bool.and_true, bne_iff_ne]
    exact hplace
  cases construct with
  | table alignments => cases hconstruct
  | tableHead => cases hconstruct
  | tableRow => cases hconstruct
  | tableCell => cases hconstruct
  | _ => exact hregular

theorem aroundCell (h : Reads .cell events) : Reads .row (Construct.tableCell.around events) := by
  obtain ⟨passages, hpassages, rfl⟩ := h
  exact ofPassage (.within .tableCell passages) hpassages

theorem aroundRow {construct : Construct} (hconstruct : construct = .tableHead ∨
    construct = .tableRow) (h : Reads .row events) : Reads .table (construct.around events) := by
  obtain ⟨passages, hpassages, rfl⟩ := h
  refine ofPassage (.within construct passages) ?_
  rcases hconstruct with rfl | rfl <;> exact hpassages

theorem aroundTable (alignments : List Alignment) (h : Reads .table events) :
    Reads .outside ((Construct.table alignments).around events) := by
  obtain ⟨passages, hpassages, rfl⟩ := h
  exact ofPassage (.within (.table alignments) passages) hpassages

end Reads

/-! ## Inlines -/

/-- An inline without parts of tables, whose leaves neither open nor close anything. -/
inductive Inline.IsPlain : Inline → Prop where
  | leaf {event : Event} (h : event.isLeaf = true) : IsPlain (.leaf event)
  | span {construct : Construct} {children : List Inline} (h : construct.isTablePart = false)
      (hchildren : ∀ child ∈ children, IsPlain child) : IsPlain (.span construct children)

/-- Inlines without parts of tables. -/
def ArePlain (inlines : List Inline) : Prop := ∀ inline ∈ inlines, inline.IsPlain

theorem Inline.isPlain_text (value : String) : (Inline.text value).IsPlain := .leaf rfl

mutual

theorem Inline.reads {place : Passage.Place} (hplace : place = .outside ∨ place = .cell) :
    ∀ {inline : Inline}, inline.IsPlain → Reads place inline.events
  | .leaf event, h => by
    obtain ⟨hleaf⟩ | _ := h
    refine .leaf ?_ hleaf
    rcases hplace with rfl | rfl <;> decide
  | .span construct children, h => by
    obtain _ | ⟨hconstruct, hchildren⟩ := h
    have hinside : Reads (if place = .outside then .outside else .cell)
        (Inline.eventsOf children) := by
      refine Inline.readsAll ?_ hchildren
      rcases hplace with rfl | rfl <;> decide
    refine .around hconstruct ?_ hinside
    rcases hplace with rfl | rfl <;> decide

/-- Plain inlines may stand in cells and outside of tables. -/
theorem Inline.readsAll {place : Passage.Place} (hplace : place = .outside ∨ place = .cell) :
    ∀ {inlines : List Inline}, ArePlain inlines → Reads place (Inline.eventsOf inlines)
  | [], _ => .nil
  | inline :: rest, h => by
    obtain ⟨hinline, hrest⟩ := List.forall_mem_cons.1 h
    exact (Inline.reads hplace hinline).append (Inline.readsAll hplace hrest)

end

/-! ## Emphasis -/

namespace Piece

/-- A piece without parts of tables. -/
def IsPlain : Piece → Prop
  | inline value => value.IsPlain
  | _ => True

namespace Pairing

/-- Is each inline of the pairing plain? -/
structure IsPlain (p : Pairing) : Prop where
  before : ArePlain p.before
  stack : ∀ run ∈ p.stack, ArePlain run.after

variable {p : Pairing}

theorem IsPlain.add (h : p.IsPlain) {inline : Inline} (hinline : inline.IsPlain) :
    (p.add inline).IsPlain := by
  obtain ⟨hbefore, hstack⟩ := h
  unfold Pairing.add
  split
  · exact ⟨List.forall_mem_cons.2 ⟨hinline, hbefore⟩, hstack⟩
  · next run rest heq =>
    rw [heq, List.forall_mem_cons] at hstack
    exact ⟨hbefore, List.forall_mem_cons.2
      ⟨List.forall_mem_cons.2 ⟨hinline, hstack.1⟩, hstack.2⟩⟩

theorem IsPlain.foldl_add {inlines : List Inline} (hinlines : ArePlain inlines) (h : p.IsPlain) :
    (inlines.foldl Pairing.add p).IsPlain := by
  induction inlines generalizing p with
  | nil => exact h
  | cons inline rest ih =>
    rw [ArePlain, List.forall_mem_cons] at hinlines
    exact ih hinlines.2 (h.add hinlines.1)

theorem isPlain_of_take? {c : Char} {length : Nat} {both : Bool} {bound : Nat}
    {stack rest : List OpenRun} {inner : List Inline} {run : OpenRun}
    (hstack : ∀ run ∈ stack, ArePlain run.after) (hinner : ArePlain inner)
    (h : take? c length both bound stack inner = some (run, rest)) :
    ArePlain run.after ∧ ∀ run ∈ rest, ArePlain run.after := by
  induction stack generalizing inner with
  | nil => cases h
  | cons first others ih =>
    obtain ⟨hfirst, hothers⟩ := List.forall_mem_cons.1 hstack
    rw [take?] at h
    split at h
    · cases h
    · split at h
      · cases h
        exact ⟨List.forall_mem_append.2 ⟨hinner, hfirst⟩, hothers⟩
      · refine ih hothers ?_ h
        refine List.forall_mem_append.2 ⟨hinner, List.forall_mem_append.2 ⟨hfirst, ?_⟩⟩
        exact List.forall_mem_singleton.2 (Inline.isPlain_text _)

theorem arePlain_wrap (c : Char) {count : Nat} {inlines : List Inline} (h : ArePlain inlines) :
    ArePlain (wrap c count inlines) := by
  have hspan {construct : Construct} (hconstruct : construct.isTablePart = false)
      {children : List Inline} (hchildren : ArePlain children) :
      ArePlain [.span construct children] :=
    List.forall_mem_singleton.2 (.span hconstruct hchildren)
  induction count using Nat.strongRecOn generalizing inlines with
  | ind count ih =>
    match count with
    | 0 => exact h
    | 1 => exact hspan (by split <;> rfl) h
    | n + 2 => exact ih n (by omega) (hspan (by split <;> rfl) h)

theorem IsPlain.close (h : p.IsPlain) (c : Char) (length : Nat) (both : Bool) (fuel count : Nat) :
    (p.close c length both fuel count).1.IsPlain := by
  induction fuel generalizing p count with
  | zero => exact h
  | succ fuel ih =>
    rw [Pairing.close]
    split
    · exact h
    · split
      · split
        · exact ⟨h.before, h.stack⟩
        · exact h
      · next run rest htake =>
        obtain ⟨hafter, hrest⟩ := isPlain_of_take? h.stack (List.forall_mem_nil _) htake
        have hspans : ArePlain (wrap c (min count run.count) run.after.reverse) :=
          arePlain_wrap c fun inline hinline ↦ hafter inline (List.mem_reverse.1 hinline)
        refine ih (IsPlain.foldl_add hspans ?_) _
        split
        · exact ⟨h.before, List.forall_mem_cons.2 ⟨List.forall_mem_nil _, hrest⟩⟩
        · exact ⟨h.before, hrest⟩

theorem IsPlain.run (h : p.IsPlain) (r : DelimiterRun) : (p.run r).IsPlain := by
  have hclosed : (if r.canClose then
      p.close r.char r.count (r.canOpen && r.canClose) r.count r.count
      else (p, r.count)).1.IsPlain := by
    split
    · exact h.close _ _ _ _ _
    · exact h
  unfold Pairing.run
  extract_lets both
  split
  next p' left heq =>
    rw [heq] at hclosed
    split
    · exact hclosed
    · split
      · exact ⟨hclosed.before, List.forall_mem_cons.2 ⟨List.forall_mem_nil _, hclosed.stack⟩⟩
      · exact hclosed.add (Inline.isPlain_text _)

theorem IsPlain.step (h : p.IsPlain) {piece : Piece} (hpiece : piece.IsPlain) :
    (p.step piece).IsPlain := by
  cases piece with
  | inline value => exact h.add hpiece
  | delimiters r => exact h.run r
  | backslashBreak => exact h.add (.leaf rfl)
  | opener image disabled stop => exact h.add (Inline.isPlain_text _)

theorem IsPlain.arePlain_finish (h : p.IsPlain) : ArePlain p.finish := by
  have hstack (stack : List OpenRun) (inner : List Inline) (hinner : ArePlain inner)
      (hstack : ∀ run ∈ stack, ArePlain run.after) :
      ArePlain (stack.foldl
        (fun inner run ↦ inner ++ run.after ++ [runText run.char run.count]) inner) := by
    induction stack generalizing inner with
    | nil => exact hinner
    | cons run rest ih =>
      obtain ⟨hrun, hrest⟩ := List.forall_mem_cons.1 hstack
      refine ih _ (List.forall_mem_append.2 ⟨List.forall_mem_append.2 ⟨hinner, hrun⟩, ?_⟩) hrest
      exact List.forall_mem_singleton.2 (Inline.isPlain_text _)
  intro inline hinline
  rw [finish, List.mem_reverse, List.mem_append] at hinline
  rcases hinline with hinline | hinline
  · exact hstack p.stack [] (List.forall_mem_nil _) h.stack inline hinline
  · exact h.before inline hinline

end Pairing

variable {pieces : List Piece}

theorem arePlain_resolve (h : ∀ piece ∈ pieces, piece.IsPlain) : ArePlain (resolve pieces) := by
  have hfold (p : Pairing) (hp : p.IsPlain) : (pieces.foldl Pairing.step p).IsPlain := by
    induction pieces generalizing p with
    | nil => exact hp
    | cons piece rest ih =>
      obtain ⟨hpiece, hrest⟩ := List.forall_mem_cons.1 h
      exact ih hrest _ (hp.step hpiece)
  have hempty : Pairing.IsPlain ⟨[], [], 0⟩ := ⟨List.forall_mem_nil _, List.forall_mem_nil _⟩
  exact (hfold _ hempty).arePlain_finish

theorem isPlain_of_mem_endInText (h : ∀ piece ∈ pieces, piece.IsPlain) :
    ∀ piece ∈ endInText pieces, piece.IsPlain := by
  unfold endInText
  split
  · exact List.forall_mem_cons.2 ⟨Inline.isPlain_text _, (List.forall_mem_cons.1 h).2⟩
  · exact h

theorem arePlain_resolveContents (h : ∀ piece ∈ pieces, piece.IsPlain) :
    ArePlain (resolveContents pieces) := by
  refine arePlain_resolve ?_
  split
  · intro piece hpiece
    refine isPlain_of_mem_endInText ?_ piece (List.mem_reverse.1 hpiece)
    exact fun piece hpiece ↦ h piece (List.mem_reverse.1 hpiece)
  · exact h

end Piece

/-! ## Running text -/

/-- A part without parts of tables. -/
def Part.IsPlain : Part → Prop
  | .inlines value => ArePlain value
  | .block _ => True

namespace Phrasing

/-- Are the pieces and parts plain? -/
structure IsPlain (p : Phrasing) : Prop where
  pieces : ∀ piece ∈ p.pieces, piece.IsPlain
  parts : ∀ part ∈ p.parts, part.IsPlain

variable {p : Phrasing}

theorem IsPlain.withPieces (h : p.IsPlain) {pieces : List Piece}
    (hpieces : ∀ piece ∈ pieces, piece.IsPlain) : IsPlain { p with pieces } :=
  ⟨hpieces, h.parts⟩

theorem IsPlain.add (h : p.IsPlain) {inline : Inline} (hinline : inline.IsPlain) :
    (p.add inline).IsPlain :=
  h.withPieces (List.forall_mem_cons.2 ⟨hinline, h.pieces⟩)

theorem IsPlain.addText (h : p.IsPlain) (text : String) : (p.addText text).IsPlain :=
  h.add (Inline.isPlain_text text)

theorem IsPlain.resolved (h : p.IsPlain) : ∀ part ∈ p.resolved, part.IsPlain :=
  List.forall_mem_cons.2 ⟨Piece.arePlain_resolve fun piece hpiece ↦
    h.pieces piece (List.mem_reverse.1 hpiece), h.parts⟩

theorem isPlain_of_splitAtOpener {pieces after contents before : List Piece}
    {opening : Bool × Bool × Nat} (hafter : ∀ piece ∈ after, piece.IsPlain)
    (hpieces : ∀ piece ∈ pieces, piece.IsPlain)
    (h : splitAtOpener after pieces = some (contents, opening, before)) :
    (∀ piece ∈ contents, piece.IsPlain) ∧ ∀ piece ∈ before, piece.IsPlain := by
  induction pieces generalizing after with
  | nil => cases h
  | cons piece rest ih =>
    obtain ⟨hpiece, hrest⟩ := List.forall_mem_cons.1 hpieces
    rw [splitAtOpener.eq_def] at h
    split at h
    · next heq => cases heq
    · next heq =>
      cases heq
      cases h
      exact ⟨hafter, hrest⟩
    · next heq =>
      cases heq
      exact ih (List.forall_mem_cons.2 ⟨hpiece, hafter⟩) hrest h

theorem isPlain_of_mem_disableLinks {pieces : List Piece} (h : ∀ piece ∈ pieces, piece.IsPlain) :
    ∀ piece ∈ disableLinks pieces, piece.IsPlain := by
  refine List.forall_mem_map.2 fun piece hpiece ↦ ?_
  split
  · trivial
  · exact h piece hpiece

theorem isPlain_of_mem_dropOpeners {pieces : List Piece} (h : ∀ piece ∈ pieces, piece.IsPlain) :
    ∀ piece ∈ dropOpeners pieces, piece.IsPlain := by
  refine List.forall_mem_map.2 fun piece hpiece ↦ ?_
  split
  · exact Inline.isPlain_text _
  · exact h piece hpiece

theorem IsPlain.closeBracket (h : p.IsPlain) (item : Item) (canRefer : Bool) (items : List Item) :
    (p.closeBracket item canRefer items).1.IsPlain := by
  unfold Phrasing.closeBracket
  extract_lets plain
  split
  · exact h.addText _
  · next contents image disabled openerStop before hsplit =>
    obtain ⟨hcontents, hbefore⟩ := isPlain_of_splitAtOpener (List.forall_mem_nil _) h.pieces hsplit
    extract_lets failed link
    have hfailed : failed.IsPlain := by
      have hopener : (Piece.inline (Piece.openerText image)).IsPlain := Inline.isPlain_text _
      refine (h.withPieces (List.forall_mem_append.2
        ⟨?_, List.forall_mem_cons.2 ⟨hopener, hbefore⟩⟩)).addText _
      exact fun piece hpiece ↦ hcontents piece (List.mem_reverse.1 hpiece)
    have hlink (target : LinkDefinition) : (link target).IsPlain := by
      refine (h.withPieces ?_).add (.span ?_ (Piece.arePlain_resolveContents hcontents))
      · split
        · exact hbefore
        · exact isPlain_of_mem_disableLinks hbefore
      · split <;> rfl
    have hfootnote (label : String) : IsPlain
        ((if image then Phrasing.addText { p with pieces := dropOpeners before } "!"
          else { p with pieces := dropOpeners before }).add (.leaf (.footnoteReference label))) := by
      have hdropped := h.withPieces (isPlain_of_mem_dropOpeners hbefore)
      refine IsPlain.add ?_ (.leaf rfl)
      split
      · exact hdropped.addText _
      · exact hdropped
    have hroom (target : LinkDefinition) :
        IsPlain { link target with room := p.room - target.size } :=
      ⟨(hlink target).pieces, (hlink target).parts⟩
    -- Whatever is read behind the bracket, one of these is left.
    repeat' first | split | dsimp only
    all_goals first | exact hfailed | exact hlink _ | exact hfootnote _ | exact hroom _

theorem IsPlain.lessThan (h : p.IsPlain) (item : Item) (items : List Item) :
    (p.lessThan item items).1.IsPlain := by
  unfold Phrasing.lessThan
  split
  · exact h.addText _
  · extract_lets s
    split
    · exact h.add (.span rfl (List.forall_mem_singleton.2 (Inline.isPlain_text _)))
    · split
      · exact h.add (.leaf rfl)
      · exact h.addText _

theorem IsPlain.step (h : p.IsPlain) (item : Item) (items : List Item) :
    (p.step item items).1.IsPlain := by
  unfold Phrasing.step
  split
  · exact h.addText _
  · exact h.addText _
  · exact h.add (.leaf rfl)
  · exact ⟨List.forall_mem_cons.2 ⟨trivial, h.pieces⟩, h.parts⟩
  · exact h.add (.leaf rfl)
  · exact ⟨List.forall_mem_cons.2 ⟨trivial, h.pieces⟩, h.parts⟩
  · split
    next closing backticks heq =>
      have hp : IsPlain { p with backticks } := ⟨h.pieces, h.parts⟩
      split
      · exact hp.addText _
      · next escaped _ _ _ _ _ =>
        refine IsPlain.add ?_ (.leaf rfl)
        cases escaped
        · exact hp
        · exact hp.addText _
  · exact h.lessThan item items
  · exact ⟨List.forall_mem_cons.2 ⟨trivial, h.pieces⟩, h.parts⟩
  · exact ⟨List.forall_mem_cons.2 ⟨trivial, h.pieces⟩, h.parts⟩
  · exact h.closeBracket item _ items
  · exact h.add (.leaf rfl)
  · exact ⟨List.forall_mem_nil _, List.forall_mem_cons.2 ⟨trivial, h.resolved⟩⟩

theorem IsPlain.run (h : p.IsPlain) (fuel : Nat) (items : List Item) :
    (Phrasing.run fuel p items).IsPlain := by
  induction fuel generalizing p items with
  | zero => exact h
  | succ fuel ih =>
    cases items with
    | nil => exact h
    | cons item items => exact ih (h.step item items) _

end Phrasing

theorem isPlain_of_mem_partsOf (place : TextPlace) (items : List Item) (room : Nat) :
    ∀ part ∈ (partsOf place items room).1, part.IsPlain := by
  have hrun : (Phrasing.run (items.length + 1) ⟨place, [], [], .empty, room⟩ items).IsPlain :=
    Phrasing.IsPlain.run ⟨List.forall_mem_nil _, List.forall_mem_nil _⟩ _ items
  intro part hpart
  rw [partsOf] at hpart
  have hpart := List.mem_reverse.1 hpart
  split at hpart
  · exact (hrun.withPieces (Piece.isPlain_of_mem_endInText hrun.pieces)).resolved part hpart
  · exact hrun.resolved part hpart

/-! ## Documents -/

namespace Document

/-- Whatever may still be taken over from definitions, the events are regular at the place. -/
def Tells (place : Passage.Place) (telling : Telling) : Prop :=
  ∀ room, Reads place (telling room).1

variable {place : Passage.Place} {d : Document}

theorem tells_pure {events : List Event} (h : Reads place events) :
    Tells place (pure events : Telling) := fun _ ↦ h

theorem tells_within {construct : Construct} {inner : Telling} {inside : Passage.Place}
    (hconstruct : ∀ events, Reads inside events → Reads place (construct.around events))
    (h : Tells inside inner) : Tells place (within construct inner) :=
  fun room ↦ hconstruct _ (h room)

theorem tells_inOrder {tellings : List Telling} (h : ∀ telling ∈ tellings, Tells place telling) :
    Tells place (inOrder tellings) := by
  induction tellings with
  | nil => exact fun _ ↦ .nil
  | cons first rest ih =>
    obtain ⟨hfirst, hrest⟩ := List.forall_mem_cons.1 h
    exact fun room ↦ (hfirst room).append (ih hrest _)

theorem tells_partEvents (hplace : place = .outside ∨ place = .cell) {blocks : List Telling}
    (hblocks : ∀ block ∈ blocks, Tells place block) {parts : List Part}
    (hparts : ∀ part ∈ parts, part.IsPlain) : Tells place (partEvents blocks parts) := by
  refine tells_inOrder (List.forall_mem_map.2 fun part hpart ↦ ?_)
  cases part with
  | inlines value => exact tells_pure (Inline.readsAll hplace (hparts _ hpart))
  | block number =>
    cases hblock : blocks[number]? with
    | none =>
      simp only [hblock]
      exact tells_pure .nil
    | some block =>
      simp only [hblock]
      exact hblocks block (List.mem_of_getElem? hblock)

theorem tells_runningEvents (hplace : place = .outside ∨ place = .cell) {blocks : List Telling}
    (hblocks : ∀ block ∈ blocks, Tells place block) (textPlace : TextPlace) (items : List Item) :
    Tells place (runningEvents textPlace blocks items) := fun _ ↦
  (tells_partEvents hplace hblocks (isPlain_of_mem_partsOf _ _ _) _).append
    (tells_partEvents hplace hblocks (isPlain_of_mem_partsOf _ _ _) _)

theorem tells_textEvents (hplace : place = .outside ∨ place = .cell) (containers : List Container)
    (inTable : Bool) (text : LeafText) : Tells place (d.textEvents containers inTable text) :=
  tells_runningEvents hplace (List.forall_mem_nil _) _ _

theorem tells_cellEvents (containers : List Container) (cells : List LeafText) :
    Tells .row (d.cellEvents containers cells) := by
  refine tells_inOrder (List.forall_mem_map.2 fun cell _ ↦ ?_)
  exact tells_within (fun _ ↦ .aroundCell) (tells_textEvents (.inr rfl) containers true cell)

theorem reads_markupEvents (line : MarkupLine) : Reads .outside (markupEvents line) := by
  have hpieces (pieces : List String) : Reads .outside (pieces.map Event.html) := by
    induction pieces with
    | nil => exact .nil
    | cons piece rest ih => exact (Reads.leaf (by decide) rfl).append ih
  refine Reads.append ?_ (hpieces line.pieces)
  split
  · exact .nil
  · exact .leaf (by decide) rfl

theorem around_outside {construct : Construct} (hconstruct : construct.isTablePart = false) :
    ∀ events, Reads .outside events → Reads .outside (construct.around events) :=
  fun _ h ↦ .around hconstruct (by decide) h

mutual

theorem tells_blockEvents (containers : List Container) (tight : Bool) (stop : Nat) :
    ∀ block : Block, Tells .outside (d.blockEvents containers tight stop block)
  | .paragraph text => by
    rw [blockEvents]
    exact tells_within (around_outside rfl) (tells_textEvents (.inl rfl) _ _ _)
  | .heading level a text => by
    rw [blockEvents]
    exact tells_within (around_outside rfl) (tells_textEvents (.inl rfl) _ _ _)
  | .rule => by
    rw [blockEvents]
    exact tells_pure (.leaf (by decide) rfl)
  | .code info text => by
    rw [blockEvents]
    refine tells_within (around_outside rfl) (tells_pure ?_)
    split
    · exact .nil
    · exact .leaf (by decide) rfl
  | .html lines => by
    rw [blockEvents]
    refine tells_within (around_outside rfl) (tells_pure ?_)
    induction lines with
    | nil => exact .nil
    | cons line rest ih => exact (reads_markupEvents line).append ih
  | .table alignments head rows => by
    rw [blockEvents]
    refine tells_within (fun _ ↦ .aroundTable alignments) (tells_inOrder ?_)
    refine List.forall_mem_cons.2 ⟨?_, List.forall_mem_map.2 fun row _ ↦ ?_⟩
    · exact tells_within (fun _ ↦ .aroundRow (.inl rfl)) (tells_cellEvents containers head)
    · exact tells_within (fun _ ↦ .aroundRow (.inr rfl)) (tells_cellEvents containers row)
  | .task checked => by
    rw [blockEvents]
    exact tells_pure (.leaf (by decide) rfl)
  | .quote children => by
    rw [blockEvents]
    exact tells_within (around_outside rfl) (tells_inOrder (tells_eachEvents _ _ children))
  | .list tight start items => by
    rw [blockEvents]
    exact tells_within (around_outside rfl) (tells_inOrder (tells_eachEvents _ _ items))
  | .item indent children => by
    rw [blockEvents]
    refine tells_within (around_outside rfl) ?_
    split
    · exact tells_runningEvents (.inl rfl) (tells_eachEvents _ _ children) _ _
    · exact tells_inOrder (tells_eachEvents _ _ children)
  | .footnote label children => by
    rw [blockEvents]
    exact tells_within (around_outside rfl) (tells_inOrder (tells_eachEvents _ _ children))

/-- Blocks may hold tables, and stand outside of all of them. -/
theorem tells_eachEvents (containers : List Container) (tight : Bool) :
    ∀ blocks : List (Placed Block),
      ∀ telling ∈ d.eachEvents containers tight blocks, Tells .outside telling
  | [] => by
    rw [eachEvents]
    exact List.forall_mem_nil _
  | ⟨_, stop, block⟩ :: rest => by
    rw [eachEvents]
    exact List.forall_mem_cons.2
      ⟨tells_blockEvents containers tight stop block, tells_eachEvents containers tight rest⟩

end

end Document

/-- Every Markdown text is read as regular passages. -/
theorem reads_events (options : CompileOptions) (text : String) :
    Reads .outside (events options text) :=
  Document.tells_inOrder (Document.tells_eachEvents [] false _) _

end NotebookTree.Markdown
