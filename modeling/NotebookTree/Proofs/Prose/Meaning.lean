import NotebookTree.Proofs.Prose.Joining

/-!
# The meaning of a document

`Draft.meaning` says what the passages of a document become, by recursion on their nesting: each
construct has its own form around the meaning of its contents, and a cell is aligned by its place
in its row. It is told of a table only what stands around a passage, where an assembly keeps and
changes what it knows while the events go by.

`Draft.ofEvents_eq_meaning` says that both are the same on documents whose tables are not nested.
-/

namespace NotebookTree

open Markdown (Construct ConstructKind Event Passage)

/-! ## Regular documents -/

/-- Is it a table or a part of one? -/
def Markdown.Construct.isTablePart : Construct → Bool
  | .table _ | .tableHead | .tableRow | .tableCell => true
  | _ => false

namespace Markdown.Passage

/-- Where a passage stands with regard to tables. -/
inductive Place where
  | outside
  /-- Directly in a table. -/
  | table
  /-- Directly in a row or a head. -/
  | row
  /-- Below a row or a head. -/
  | cell
  deriving DecidableEq

mutual

/-- Are tables not nested, with nothing but heads and rows in them, and are cells in rows and heads
alone? -/
def regular (place : Place) : Passage → Bool
  | leaf _ _ => place != .table
  | within construct contents =>
    match construct with
    | .table _ => place == .outside && regularAll .table contents
    | .tableHead => (place == .outside || place == .table) && regularAll .row contents
    | .tableRow => (place == .outside || place == .table) && regularAll .row contents
    | .tableCell => place == .row && regularAll .cell contents
    | _ => place != .table && regularAll (if place = .outside then .outside else .cell) contents

/-- Are all passages at a place regular? -/
def regularAll (place : Place) : List Passage → Bool
  | [] => true
  | passage :: rest => regular place passage && regularAll place rest

end

end Markdown.Passage

/-! ## Meaning -/

namespace Columns

/-- The columns around the contents of a construct. -/
def inside (c : Columns) : Construct → Columns
  | .table alignments => ⟨alignments, false, 0⟩
  | .tableHead => ⟨c.alignments, true, 0⟩
  | .tableRow => ⟨c.alignments, false, 0⟩
  | _ => .none

/-- The columns for what stands behind a passage: each cell takes one. -/
def past (c : Columns) : Passage → Columns
  | .within .tableCell _ => { c with column := c.column + 1 }
  | _ => c

/-- The attributes of the cell in the next column. -/
def cellAttributes (c : Columns) : Attributes :=
  match c.alignments[c.column]? with
  | some .left => Attributes.ofList [("align", "left")]
  | some .center => Attributes.ofList [("align", "center")]
  | some .right => Attributes.ofList [("align", "right")]
  | some .unspecified => .empty
  | Option.none => .empty

end Columns

namespace Draft

/-- The meaning of a passage in a list, and whether the passage is the head of a table. -/
structure Part where
  isHead : Bool
  drafts : List Draft

/-- The drafts of parts one after the other. -/
def draftsOf (parts : List Part) : List Draft :=
  joined (parts.flatMap Part.drafts)

/-- A table with its heads first, and all else in one body. -/
def tableOf (parts : List Part) : Draft :=
  let rows := draftsOf (parts.filter (!·.isHead))
  ofTag "table" (draftsOf (parts.filter Part.isHead) ++
    if rows.isEmpty then [] else [ofTag "tbody" rows])

/-- The form of a construct around the meaning of its contents. -/
def formOf (c : Columns) (construct : Construct) (parts : List Part) : List Draft :=
  let inner := draftsOf parts
  match construct with
  | .paragraph => [ofTag "p" inner]
  | .heading level id classes extra =>
    [element ("h" ++ toString level) (Assembly.headingAttributes id classes extra) inner]
  | .blockQuote => [ofTag "blockquote" inner]
  | .codeBlock info =>
    match info >>= Assembly.language? with
    | some word =>
      [ofTag "pre" [element "code" (Attributes.ofList [("class", "language-" ++ word)]) inner]]
    | none => [ofTag "pre" [ofTag "code" inner]]
  | .list none => [ofTag "ul" inner]
  | .list (some 1) => [ofTag "ol" inner]
  | .list (some start) =>
    [element "ol" (Attributes.ofList [("start", toString start)]) inner]
  | .item => [ofTag "li" inner]
  | .footnoteDefinition label =>
    [element "div" (Attributes.ofList [("class", "footnote-definition"), ("id", "fn-" ++ label)])
      inner]
  | .table _ => [tableOf parts]
  | .tableHead => [ofTag "thead" [ofTag "tr" inner]]
  | .tableRow => [ofTag "tr" inner]
  | .tableCell => [element (if c.inHead then "th" else "td") c.cellAttributes inner]
  | .emphasis => [ofTag "em" inner]
  | .strong => [ofTag "strong" inner]
  | .strikethrough => [ofTag "del" inner]
  | .link destination title =>
    [element "a" (Assembly.targetAttributes "href" destination title) inner]
  | .image destination title =>
    [element "img"
      ((Assembly.targetAttributes "src" destination title).insert "alt" (textContents inner)) []]
  | .htmlBlock | .other => inner

mutual

/-- What a passage becomes. -/
def meaning (c : Columns) : Passage → List Draft
  | .leaf event _ => leafDrafts event
  | .within construct contents => formOf c construct (partsOf (c.inside construct) contents)

/-- What each passage of a list becomes. -/
def partsOf (c : Columns) : List Passage → List Part
  | [] => []
  | passage :: rest =>
    ⟨passage.hasKindIn [.tableHead], meaning c passage⟩ :: partsOf (c.past passage) rest

end

/-- What a document becomes. -/
def meaningAll (passages : List Passage) : List Draft :=
  draftsOf (partsOf .none passages)

end Draft

/-! ## Forms -/

namespace Draft

/-- Outside tables the form of a construct is what an assembly makes of it when it closes. A cell
depends on its column. -/
theorem formOf_eq_close {c c' : Columns} (construct : Construct) (parts : List Part)
    (htable : construct.kind ≠ .table) (hcell : construct.kind = .tableCell → c = c') :
    formOf c' construct parts = Assembly.close (c.frameKind construct) (draftsOf parts) := by
  cases construct with
  | table alignments => exact absurd rfl htable
  | tableCell =>
    obtain rfl := hcell rfl
    have hattributes : Attributes.ofList ((c.alignments[c.column]? >>=
        Assembly.alignmentValue?).toList.map (("align", ·))) = c.cellAttributes := by
      unfold Columns.cellAttributes
      rcases c.alignments[c.column]? with _ | alignment
      · rfl
      · cases alignment <;> rfl
    show [element _ c.cellAttributes _] = _
    rw [← hattributes]
    rfl
  | codeBlock info =>
    show (match info >>= Assembly.language? with | some word => _ | none => _) =
      Assembly.close (.code (info >>= Assembly.language?)) (draftsOf parts)
    cases info >>= Assembly.language? <;> rfl
  | list start =>
    rcases start with _ | start
    · rfl
    · by_cases hone : start = 1
      · subst hone
        rfl
      · have hattributes : (if start = 1 then [] else [("start", toString start)]) =
            [("start", toString start)] := if_neg hone
        show formOf c' (.list (some start)) parts =
          [element "ol" (Attributes.ofList (if start = 1 then [] else [("start", toString start)]))
            (draftsOf parts)]
        rw [hattributes]
        simp [formOf]
  | _ => rfl

/-- A head or a row of a table. -/
def Part.IsTablePart (part : Part) : Prop :=
  ∃ children, part = ⟨true, [ofTag "thead" children]⟩ ∨ part = ⟨false, [ofTag "tr" children]⟩

theorem isElement_of_isTablePart {parts : List Part} (h : ∀ part ∈ parts, part.IsTablePart) :
    ∀ draft ∈ parts.flatMap Part.drafts, draft.isElement := by
  intro draft hmem
  obtain ⟨part, hpart, hdraft⟩ := List.mem_flatMap.1 hmem
  obtain ⟨children, rfl | rfl⟩ := h part hpart
  · rw [List.mem_singleton.1 hdraft]
    rfl
  · rw [List.mem_singleton.1 hdraft]
    rfl

/-- An assembly tells heads from rows by their tags. -/
theorem filter_isTableHead_flatMap {parts : List Part} (h : ∀ part ∈ parts, part.IsTablePart) :
    (parts.flatMap Part.drafts).filter Assembly.isTableHead =
        (parts.filter Part.isHead).flatMap Part.drafts ∧
      (parts.flatMap Part.drafts).filter (!Assembly.isTableHead ·) =
        (parts.filter (!·.isHead)).flatMap Part.drafts := by
  induction parts with
  | nil => exact ⟨rfl, rfl⟩
  | cons part rest ih =>
    obtain ⟨hheads, hrows⟩ := ih fun other hmem ↦ h other (List.mem_cons_of_mem _ hmem)
    obtain ⟨children, rfl | rfl⟩ := h part List.mem_cons_self
    · have hhead : Assembly.isTableHead (ofTag "thead" children) = true := rfl
      simp [hhead, hheads, hrows]
    · have hrow : Assembly.isTableHead (ofTag "tr" children) = false := rfl
      simp [hrow, hheads, hrows]

theorem tableOf_eq_close {parts : List Part} (h : ∀ part ∈ parts, part.IsTablePart) :
    [tableOf parts] = Assembly.close .table (draftsOf parts) := by
  have hall {parts : List Part} (h : ∀ part ∈ parts, part.IsTablePart) :
      draftsOf parts = parts.flatMap Part.drafts :=
    joined_of_forall_isElement (isElement_of_isTablePart h)
  obtain ⟨hheads, hrows⟩ := filter_isTableHead_flatMap h
  rw [tableOf, hall fun part hmem ↦ h part ((List.mem_filter.1 hmem).1),
    hall fun part hmem ↦ h part ((List.mem_filter.1 hmem).1), Assembly.close, hall h, hheads,
    hrows]

end Draft

/-! ## What an assembly knows, and what stands around a passage -/

open Markdown.Passage (Place regular regularAll)

/-- At a place, what an assembly knows of columns agrees with what stands around. -/
def Columns.Agree (place : Place) (known around : Columns) : Prop :=
  match place with
  | .outside => known.alignments = [] ∧ around.alignments = [] ∧ known.inHead = false
  | .table => known.alignments = around.alignments ∧ known.inHead = false
  | .row => known = around
  | .cell => True

/-- At a place, a passage leaves what is known of columns as it was, but for the number of the
next column in rows. -/
structure Columns.Steady (place : Place) (before after : Columns) : Prop where
  alignments : after.alignments = before.alignments
  inHead : after.inHead = before.inHead
  eq_of_cell : place = .cell → after = before

theorem Columns.Steady.refl (place : Place) (c : Columns) : Steady place c c :=
  ⟨rfl, rfl, fun _ ↦ rfl⟩

theorem Columns.Steady.trans {place : Place} {c c' c'' : Columns} (h : Steady place c c')
    (h' : Steady place c' c'') : Steady place c c'' :=
  ⟨h'.alignments.trans h.alignments, h'.inHead.trans h.inHead,
    fun hcell ↦ (h'.eq_of_cell hcell).trans (h.eq_of_cell hcell)⟩

namespace Draft

/-- The drafts of a regular passage are its meaning. -/
def Means (passage : Passage) : Prop :=
  ∀ place known around, regular place passage = true → Columns.Agree place known around →
    (ofPassage known passage).1 = meaning around passage ∧
      Columns.Agree place (ofPassage known passage).2 (around.past passage) ∧
      Columns.Steady place known (ofPassage known passage).2

/-- The drafts of regular passages are their meaning. -/
def MeansAll (passages : List Passage) : Prop :=
  ∀ place known around, regularAll place passages = true → Columns.Agree place known around →
    (ofPassages known passages).1 = (partsOf around passages).flatMap Part.drafts ∧
      Columns.Steady place known (ofPassages known passages).2

theorem means_leaf (event : Event) (isLeaf : event.isLeaf = true) :
    Means (.leaf event isLeaf) := by
  intro place known around _ hagree
  exact ⟨rfl, hagree, .refl place known⟩

theorem meansAll_nil : MeansAll [] := by
  intro place known around _ hagree
  exact ⟨rfl, .refl place known⟩

theorem meansAll_cons {passage : Passage} {rest : List Passage} (hpassage : Means passage)
    (hrest : MeansAll rest) : MeansAll (passage :: rest) := by
  intro place known around hregular hagree
  rw [regularAll, Bool.and_eq_true] at hregular
  obtain ⟨hfirst, hagree', hsteady⟩ := hpassage place known around hregular.1 hagree
  obtain ⟨hothers, hsteady'⟩ := hrest place _ _ hregular.2 hagree'
  refine ⟨?_, hsteady.trans hsteady'⟩
  rw [ofPassages_cons, hfirst, hothers]
  rfl

/-- A construct that is no part of a table tells and changes nothing of columns. -/
theorem means_within {construct : Construct} {contents : List Passage}
    (hpart : construct.isTablePart = false) (hcontents : MeansAll contents) :
    Means (.within construct contents) := by
  intro place known around hregular hagree
  have hopened : known.opened construct = known := by
    cases construct <;> first | rfl | cases hpart
  have hclosed (c : Columns) : c.closed construct = c := by
    cases construct <;> first | rfl | cases hpart
  have hinside : around.inside construct = .none := by
    cases construct <;> first | rfl | cases hpart
  have hpast : around.past (.within construct contents) = around := by
    cases construct <;> first | rfl | cases hpart
  have hplace : regular place (.within construct contents) =
      (place != .table && regularAll (if place = .outside then .outside else .cell) contents) := by
    cases construct <;> first | rfl | cases hpart
  rw [hplace, Bool.and_eq_true, bne_iff_ne] at hregular
  obtain ⟨hnotTable, hregular⟩ := hregular
  have htable : construct.kind ≠ .table := fun h ↦ by
    cases construct <;> first | (cases h; done) | cases hpart
  have hcell : construct.kind ≠ .tableCell := fun h ↦ by
    cases construct <;> first | (cases h; done) | cases hpart
  rw [ofPassage_within, meaning, hopened, hclosed, hinside, hpast,
    formOf_eq_close (c := known) construct _ htable fun h ↦ absurd h hcell]
  by_cases houtside : place = .outside
  · subst houtside
    obtain ⟨hknown, haround, hhead⟩ := hagree
    obtain ⟨hdrafts, hsteady⟩ := hcontents .outside known .none hregular ⟨hknown, rfl, hhead⟩
    refine ⟨by rw [hdrafts]; rfl, ⟨?_, haround, ?_⟩, hsteady⟩
    · exact hsteady.alignments.trans hknown
    · exact hsteady.inHead.trans hhead
  · rw [if_neg houtside] at hregular
    obtain ⟨hdrafts, hsteady⟩ := hcontents .cell known .none hregular trivial
    rw [hsteady.eq_of_cell rfl]
    exact ⟨by rw [hdrafts]; rfl, hagree, .refl place known⟩

/-- Between heads and rows, and around tables, the alignments known are those around, and no head
is open. -/
theorem agree_of_outside_or_table {place : Place} {known around : Columns}
    (hplace : (place == .outside || place == .table) = true)
    (h : Columns.Agree place known around) :
    known.alignments = around.alignments ∧ known.inHead = false := by
  cases place with
  | outside => exact ⟨h.1.trans h.2.1.symm, h.2.2⟩
  | table => exact h
  | row => cases hplace
  | cell => cases hplace

theorem agree_of_steady {place : Place} {known around after : Columns}
    (hplace : (place == .outside || place == .table) = true)
    (h : Columns.Agree place known around) (hsteady : Columns.Steady place known after) :
    Columns.Agree place after around := by
  cases place with
  | outside => exact ⟨hsteady.alignments.trans h.1, h.2.1, hsteady.inHead.trans h.2.2⟩
  | table => exact ⟨hsteady.alignments.trans h.1, hsteady.inHead.trans h.2⟩
  | row => cases hplace
  | cell => cases hplace

theorem means_tableHead {contents : List Passage} (hcontents : MeansAll contents) :
    Means (.within .tableHead contents) := by
  intro place known around hregular hagree
  rw [regular, Bool.and_eq_true] at hregular
  obtain ⟨halignments, hhead⟩ := agree_of_outside_or_table hregular.1 hagree
  have hinside : known.opened .tableHead = around.inside .tableHead := by
    rw [Columns.opened, Columns.inside, halignments]
  obtain ⟨hdrafts, hsteady⟩ := hcontents .row _ _ hregular.2 hinside
  have hafter : Columns.Steady place known
      ((ofPassages (known.opened .tableHead) contents).2.closed .tableHead) := by
    refine ⟨hsteady.alignments, hhead.symm, ?_⟩
    rintro rfl
    cases hregular.1
  refine ⟨?_, agree_of_steady hregular.1 hagree hafter, hafter⟩
  rw [ofPassage_within, meaning, hdrafts]
  rfl

theorem means_tableRow {contents : List Passage} (hcontents : MeansAll contents) :
    Means (.within .tableRow contents) := by
  intro place known around hregular hagree
  rw [regular, Bool.and_eq_true] at hregular
  obtain ⟨halignments, hhead⟩ := agree_of_outside_or_table hregular.1 hagree
  have hinside : known.opened .tableRow = around.inside .tableRow := by
    rw [Columns.opened, Columns.inside, halignments, hhead]
  obtain ⟨hdrafts, hsteady⟩ := hcontents .row _ _ hregular.2 hinside
  have hafter : Columns.Steady place known
      ((ofPassages (known.opened .tableRow) contents).2.closed .tableRow) := by
    refine ⟨hsteady.alignments, hsteady.inHead, ?_⟩
    rintro rfl
    cases hregular.1
  refine ⟨?_, agree_of_steady hregular.1 hagree hafter, hafter⟩
  rw [ofPassage_within, meaning, hdrafts]
  rfl

theorem means_tableCell {contents : List Passage} (hcontents : MeansAll contents) :
    Means (.within .tableCell contents) := by
  intro place known around hregular hagree
  rw [regular, Bool.and_eq_true, beq_iff_eq] at hregular
  obtain ⟨rfl, hregular⟩ := hregular
  obtain rfl : known = around := hagree
  obtain ⟨hdrafts, hsteady⟩ := hcontents .cell known .none hregular trivial
  have hafter : (ofPassages known contents).2 = known := hsteady.eq_of_cell rfl
  have hform : formOf known .tableCell (partsOf .none contents) =
      Assembly.close (known.frameKind .tableCell) (draftsOf (partsOf .none contents)) :=
    formOf_eq_close .tableCell _ (by decide) fun _ ↦ rfl
  refine ⟨?_, ?_, ?_⟩
  · show Assembly.close (known.frameKind .tableCell) (joined (ofPassages known contents).1) = _
    rw [hdrafts]
    exact hform.symm
  · show (ofPassages known contents).2.closed .tableCell = _
    rw [hafter]
    rfl
  · show Columns.Steady .row known ((ofPassages known contents).2.closed .tableCell)
    rw [hafter]
    exact ⟨rfl, rfl, fun h ↦ by cases h⟩

/-- Regular passages of a table are heads and rows. -/
theorem isTablePart_of_regularAll {passages : List Passage} (around : Columns)
    (h : regularAll .table passages = true) :
    ∀ part ∈ partsOf around passages, part.IsTablePart := by
  induction passages generalizing around with
  | nil => exact fun part hmem ↦ absurd hmem List.not_mem_nil
  | cons passage rest ih =>
    rw [regularAll, Bool.and_eq_true] at h
    rw [partsOf, List.forall_mem_cons]
    refine ⟨?_, ih _ h.2⟩
    cases passage with
    | leaf event isLeaf => cases h.1
    | within construct contents =>
      cases construct <;> first
        | exact absurd h.1 Bool.false_ne_true
        | exact ⟨_, .inl rfl⟩
        | exact ⟨_, .inr rfl⟩

theorem means_table {alignments : List Markdown.Alignment} {contents : List Passage}
    (hcontents : MeansAll contents) : Means (.within (.table alignments) contents) := by
  intro place known around hregular hagree
  rw [regular, Bool.and_eq_true, beq_iff_eq] at hregular
  obtain ⟨rfl, hregular⟩ := hregular
  obtain ⟨hknown, haround, hhead⟩ := hagree
  obtain ⟨hdrafts, hsteady⟩ := hcontents .table (known.opened (.table alignments))
    (around.inside (.table alignments)) hregular ⟨rfl, hhead⟩
  have hinHead : (ofPassages (known.opened (.table alignments)) contents).2.inHead = false :=
    hsteady.inHead.trans hhead
  refine ⟨?_, ⟨rfl, haround, hinHead⟩, ⟨hknown.symm, hinHead.trans hhead.symm, fun h ↦ by cases h⟩⟩
  rw [ofPassage_within, meaning, hdrafts]
  exact (tableOf_eq_close (isTablePart_of_regularAll _ hregular)).symm

mutual

theorem means : ∀ passage, Means passage
  | .leaf event isLeaf => means_leaf event isLeaf
  | .within construct contents => by
    have hcontents := meansAll contents
    cases construct with
    | table alignments => exact means_table hcontents
    | tableHead => exact means_tableHead hcontents
    | tableRow => exact means_tableRow hcontents
    | tableCell => exact means_tableCell hcontents
    | _ => exact means_within rfl hcontents

theorem meansAll : ∀ passages, MeansAll passages
  | [] => meansAll_nil
  | passage :: rest => meansAll_cons (means passage) (meansAll rest)

end

end Draft

end NotebookTree
