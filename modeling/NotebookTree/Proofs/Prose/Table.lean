import NotebookTree.Proofs.Prose.Elements
import NotebookTree.Proofs.Prose.Meaning

/-!
# Tables

`Markdown.Table.draft` says what a table becomes by itself: a head, and a body if there are rows,
with the cells of each row in order and aligned by the columns of this table. What an assembly knows
of columns when it comes to a table has no bearing on it: `Draft.ofPassage_table`. So the tables of
a document become the tables of its drafts one by one, wherever they stand:
`Draft.tables_of_ofEvents`.
-/

namespace NotebookTree

open Markdown (Construct ConstructKind Event Passage)
open Markdown.Passage (regularAll)

/-! ## Tables by themselves -/

namespace Markdown

/-- A table with one head. Of each cell the contents are given. -/
structure Table where
  alignments : List Alignment
  head : List (List Passage)
  rows : List (List (List Passage))

/-- A row, or a head, of cells. -/
def Passage.ofCells (row : Construct) (cells : List (List Passage)) : Passage :=
  .within row (cells.map (.within .tableCell))

namespace Table

/-- The head of a table and then its rows. -/
def passage (t : Table) : Passage :=
  .within (.table t.alignments)
    (.ofCells .tableHead t.head :: t.rows.map (.ofCells .tableRow))

/-- Is no table, and no part of one, in the cells? -/
def hasPlainCells (t : Table) : Bool :=
  (t.head :: t.rows).all fun cells ↦ cells.all (regularAll .cell)

/-- The cells of a row. The cell in each column is aligned as the table says for this column. -/
def cellDrafts (t : Table) (tag : String) (cells : List (List Passage)) : List Draft :=
  cells.mapIdx fun column contents ↦
    .element tag (Columns.cellAttributes ⟨t.alignments, false, column⟩) (Draft.meaningAll contents)

/-- The head. -/
def headDraft (t : Table) : Draft :=
  .ofTag "thead" [.ofTag "tr" (t.cellDrafts "th" t.head)]

/-- The rows. -/
def rowDrafts (t : Table) : List Draft :=
  t.rows.map fun cells ↦ .ofTag "tr" (t.cellDrafts "td" cells)

/-- What a table becomes. -/
def draft (t : Table) : Draft :=
  .ofTag "table" (t.headDraft :: if t.rows = [] then [] else [.ofTag "tbody" t.rowDrafts])

end Table

end Markdown

open Markdown (Table)

namespace Draft

/-! ## Cells and rows -/

/-- A cell is made of its contents and its column alone, and counts as one column. -/
theorem ofPassage_tableCell {contents : List Passage} (h : regularAll .cell contents = true)
    (c : Columns) :
    ofPassage c (.within .tableCell contents) =
      ([element (if c.inHead then "th" else "td") c.cellAttributes (meaningAll contents)],
        { c with column := c.column + 1 }) := by
  obtain ⟨hdrafts, hcolumns, -⟩ := means (.within .tableCell contents) .row c c h rfl
  exact Prod.ext hdrafts hcolumns

/-- The cells of a row follow each other in the columns. -/
theorem ofPassages_cells {cells : List (List Passage)} (h : cells.all (regularAll .cell) = true)
    (c : Columns) :
    ofPassages c (cells.map (.within .tableCell)) =
      (cells.mapIdx fun index contents ↦
          element (if c.inHead then "th" else "td")
            (Columns.cellAttributes ⟨c.alignments, false, c.column + index⟩) (meaningAll contents),
        { c with column := c.column + cells.length }) := by
  induction cells generalizing c with
  | nil => rfl
  | cons contents rest ih =>
    rw [List.all_cons, Bool.and_eq_true] at h
    rw [List.map_cons, ofPassages_cons, ofPassage_tableCell h.1, ih h.2, List.mapIdx_cons]
    simp only [List.length_cons, Nat.add_assoc, Nat.add_comm 1, Nat.add_zero]
    rfl

variable {t : Table}

theorem isElement_of_mem_cellDrafts {tag : String} {cells : List (List Passage)} :
    ∀ draft ∈ t.cellDrafts tag cells, draft.isElement := by
  intro draft hmem
  obtain ⟨column, hcolumn, rfl⟩ := List.mem_mapIdx.1 hmem
  rfl

/-- From the first column on, the cells of a row are those that the table says. -/
theorem ofPassages_cellDrafts {cells : List (List Passage)}
    (h : cells.all (regularAll .cell) = true) (inHead : Bool) :
    ofPassages ⟨t.alignments, inHead, 0⟩ (cells.map (.within .tableCell)) =
      (t.cellDrafts (if inHead then "th" else "td") cells,
        ⟨t.alignments, inHead, cells.length⟩) := by
  rw [ofPassages_cells h]
  simp only [Nat.zero_add]
  rfl

/-- A head starts at the first column, and what comes behind it is in no head. -/
theorem ofPassage_head (h : t.head.all (regularAll .cell) = true) {c : Columns}
    (hc : c.alignments = t.alignments) :
    ofPassage c (.ofCells .tableHead t.head) =
      ([t.headDraft], ⟨t.alignments, false, t.head.length⟩) := by
  rw [Passage.ofCells, ofPassage_within, Columns.opened, hc, ofPassages_cellDrafts h,
    joined_of_forall_isElement isElement_of_mem_cellDrafts]
  rfl

/-- A row starts at the first column. -/
theorem ofPassage_row {cells : List (List Passage)} (h : cells.all (regularAll .cell) = true)
    (column : Nat) :
    ofPassage ⟨t.alignments, false, column⟩ (.ofCells .tableRow cells) =
      ([ofTag "tr" (t.cellDrafts "td" cells)], ⟨t.alignments, false, cells.length⟩) := by
  rw [Passage.ofCells, ofPassage_within, Columns.opened, ofPassages_cellDrafts h,
    joined_of_forall_isElement isElement_of_mem_cellDrafts]
  rfl

theorem ofPassages_rows {rows : List (List (List Passage))}
    (h : rows.all (fun cells ↦ cells.all (regularAll .cell)) = true) (column : Nat) :
    ∃ column', ofPassages ⟨t.alignments, false, column⟩ (rows.map (.ofCells .tableRow)) =
      (rows.map fun cells ↦ ofTag "tr" (t.cellDrafts "td" cells),
        ⟨t.alignments, false, column'⟩) := by
  induction rows generalizing column with
  | nil => exact ⟨column, rfl⟩
  | cons cells rest ih =>
    rw [List.all_cons, Bool.and_eq_true] at h
    obtain ⟨column', hrest⟩ := ih h.2 cells.length
    refine ⟨column', ?_⟩
    rw [List.map_cons, ofPassages_cons, ofPassage_row h.1, hrest]
    rfl

/-- A closed table has its head and then, if there are any, its rows in a body. -/
theorem close_table (t : Table) :
    Assembly.close .table (t.headDraft :: t.rowDrafts) = [t.draft] := by
  have hheads : t.rowDrafts.filter Assembly.isTableHead = [] :=
    List.filter_eq_nil_iff.2 (List.forall_mem_map.2 fun _ _ ↦ Bool.false_ne_true)
  have hrows : t.rowDrafts.filter (!Assembly.isTableHead ·) = t.rowDrafts :=
    List.filter_eq_self.2 (List.forall_mem_map.2 fun _ _ ↦ rfl)
  have hempty : t.rowDrafts.isEmpty = true ↔ t.rows = [] := by
    rw [List.isEmpty_iff, Table.rowDrafts, List.map_eq_nil_iff]
  rw [Assembly.close, List.filter_cons_of_pos rfl, List.filter_cons_of_neg Bool.false_ne_true,
    hheads, hrows, Table.draft]
  simp only [hempty]
  rfl

/-- A table becomes the same whatever is known of columns before it, and no alignment is known
behind it. -/
theorem ofPassage_table (h : t.hasPlainCells = true) (c : Columns) :
    ∃ column, ofPassage c t.passage = ([t.draft], ⟨[], false, column⟩) := by
  rw [Table.hasPlainCells, List.all_cons, Bool.and_eq_true] at h
  have hhead : ofPassage (c.opened (.table t.alignments)) (.ofCells .tableHead t.head) =
      ([t.headDraft], ⟨t.alignments, false, t.head.length⟩) := ofPassage_head h.1 rfl
  obtain ⟨last, hrows⟩ := ofPassages_rows h.2 t.head.length
  have hparts : ofPassages (c.opened (.table t.alignments))
      (.ofCells .tableHead t.head :: t.rows.map (.ofCells .tableRow)) =
        (t.headDraft :: t.rowDrafts, ⟨t.alignments, false, last⟩) := by
    rw [ofPassages_cons, hhead, hrows]
    rfl
  have helements : ∀ draft ∈ t.headDraft :: t.rowDrafts, draft.isElement :=
    List.forall_mem_cons.2 ⟨rfl, List.forall_mem_map.2 fun _ _ ↦ rfl⟩
  refine ⟨last, ?_⟩
  rw [Table.passage, ofPassage_within, hparts, joined_of_forall_isElement helements]
  exact congrArg (·, _) (close_table t)

/-! ## Tables in documents -/

mutual

theorem ofKind_table_of_regular : ∀ {passage : Passage},
    Passage.regular .cell passage = true → passage.ofKind .table = []
  | .leaf event isLeaf, _ => rfl
  | .within construct contents, h => by
    have hregular : construct.kind ≠ .table ∧ regularAll .cell contents = true := by
      cases construct <;> first | exact ⟨nofun, h⟩ | cases h
    rw [Passage.ofKind, if_neg hregular.1, ofKindAll_table_of_regularAll hregular.2, ite_self]

/-- In a cell there are no tables. -/
theorem ofKindAll_table_of_regularAll : ∀ {passages : List Passage},
    regularAll .cell passages = true → Passage.ofKindAll .table passages = []
  | [], _ => rfl
  | passage :: rest, h => by
    rw [regularAll, Bool.and_eq_true] at h
    rw [Passage.ofKindAll, ofKind_table_of_regular h.1, ofKindAll_table_of_regularAll h.2]
    rfl

end

theorem withTagAll_table_meaningAll {contents : List Passage}
    (h : regularAll .cell contents = true) : withTagAll "table" (meaningAll contents) = [] := by
  obtain ⟨hdrafts, -⟩ := meansAll contents .cell .none .none h trivial
  have hnone := ofKindAll_table_of_regularAll h
  rw [meaningAll, draftsOf, withTagAll_joined, ← hdrafts,
    withTagAll_ofPassages hasOwnTag_table .none contents (.inl rfl), hnone]
  · rfl
  · rw [hnone]
    exact fun _ hmem ↦ absurd hmem List.not_mem_nil

theorem withTagAll_eq_nil {tag : String} {drafts : List Draft}
    (h : ∀ draft ∈ drafts, withTag tag draft = []) : withTagAll tag drafts = [] := by
  induction drafts with
  | nil => rfl
  | cons draft rest ih =>
    rw [List.forall_mem_cons] at h
    rw [withTagAll, h.1, ih h.2]
    rfl

theorem withTagAll_table_cellDrafts {tag : String} (htag : tag ≠ "table")
    {cells : List (List Passage)} (h : cells.all (regularAll .cell) = true) :
    withTagAll "table" (t.cellDrafts tag cells) = [] := by
  refine withTagAll_eq_nil fun draft hmem ↦ ?_
  obtain ⟨column, hcolumn, rfl⟩ := List.mem_mapIdx.1 hmem
  rw [withTag_of_ne htag]
  exact withTagAll_table_meaningAll (List.all_eq_true.1 h _ (List.getElem_mem hcolumn))

theorem withTag_table_headDraft (h : t.head.all (regularAll .cell) = true) :
    withTag "table" t.headDraft = [] := by
  rw [Table.headDraft, ofTag, withTag_of_ne (by decide), withTagAll_singleton, ofTag,
    withTag_of_ne (by decide), withTagAll_table_cellDrafts (by decide) h]

theorem withTagAll_table_rowDrafts
    (h : t.rows.all (fun cells ↦ cells.all (regularAll .cell)) = true) :
    withTagAll "table" t.rowDrafts = [] := by
  refine withTagAll_eq_nil (List.forall_mem_map.2 fun cells hmem ↦ ?_)
  rw [ofTag, withTag_of_ne (by decide),
    withTagAll_table_cellDrafts (by decide) (List.all_eq_true.1 h cells hmem)]

/-- A table holds no other. -/
theorem withTagAll_table_draft (h : t.hasPlainCells = true) :
    withTagAll "table" [t.draft] = [t.draft] := by
  rw [Table.hasPlainCells, List.all_cons, Bool.and_eq_true] at h
  have hbody : withTagAll "table" (if t.rows = [] then [] else [ofTag "tbody" t.rowDrafts]) =
      [] := by
    split
    · rfl
    · rw [withTagAll_singleton, ofTag, withTag_of_ne (by decide), withTagAll_table_rowDrafts h.2]
  rw [withTagAll_singleton, Table.draft, ofTag, withTag, if_pos rfl, withTagAll,
    withTag_table_headDraft h.1, hbody]
  rfl

/-- The sequences of events that are nested well are the readings of passages, which are accepted
within their depth. The tables of such a document are those of its drafts, in the same order, and
each has the head and the rows that it has by itself. Wherever a table stands and whatever is known
of columns there, it is added as a whole to what is built so far, and leaves no alignments and no
open head behind. -/
theorem tables_of_ofEvents :
    (∀ events, Event.balanced [] events = true ↔
      ∃ passages, Passage.eventsAll passages = events) ∧
    (∀ (limit : Nat) (passages : List Passage),
      (∃ drafts, ofEvents limit (Passage.eventsAll passages) = .ok drafts) ↔
        Passage.depthAll passages ≤ limit) ∧
    ∀ (limit : Nat) (passages : List Passage) (drafts : List Draft),
      ofEvents limit (Passage.eventsAll passages) = .ok drafts →
        (∀ tables : List Table, Passage.ofKindAll .table passages = tables.map Table.passage →
          (∀ t ∈ tables, t.hasPlainCells = true) →
          withTagAll "table" drafts = tables.map Table.draft) ∧
        ∀ (t : Table) (before after : List Event), t.hasPlainCells = true →
          Passage.eventsAll passages = before ++ t.passage.events ++ after →
          ∃ a c, before.foldlM Assembly.step (Assembly.empty limit) = .ok a ∧
            t.passage.events.foldlM Assembly.step a = .ok ((a.push t.draft).withColumns c) ∧
            c.alignments = [] ∧ c.inHead = false := by
  refine ⟨fun events ↦ Event.balanced_iff_exists_passages,
    fun limit passages ↦ exists_ofEvents_eventsAll_iff, ?_⟩
  intro limit passages drafts hdrafts
  refine ⟨?_, ?_⟩
  · intro tables htables hplain
    refine withTagAll_of_ofEvents hasOwnTag_table (.inl rfl) htables (fun t hmem known ↦ ?_) hdrafts
    obtain ⟨column, hone⟩ := ofPassage_table (hplain t hmem) known
    rw [hone, withTagAll_table_draft (hplain t hmem)]
  · intro t before after hplain hevents
    rw [hevents] at hdrafts
    obtain ⟨a, hbefore, htable⟩ := exists_foldlM_step_of_ofEvents hdrafts
    obtain ⟨column, hone⟩ := ofPassage_table hplain a.columns
    rw [hone] at htable
    exact ⟨a, ⟨[], false, column⟩, hbefore, htable, rfl, rfl⟩

/-- Two tables with other columns: a row is longer than the columns that are aligned, and the
second table has no rows. -/
def unlikeTables : List Table :=
  let cell (value : String) : List Passage := [.leaf (.text value) (Eq.refl true)]
  [⟨[.unspecified, .right], [cell "a", cell "b"], [[cell "1", cell "2", cell "3"], [cell "4"]]⟩,
    ⟨[.center], [cell "c", cell "d"], []⟩]

theorem tables_of_ofEvents_unlikeTables :
    ∃ drafts, ofEvents 3 (Passage.eventsAll (unlikeTables.map Table.passage)) = .ok drafts ∧
      (∀ t ∈ unlikeTables, t.hasPlainCells = true) ∧
      withTagAll "table" drafts = unlikeTables.map Table.draft ∧
      drafts = [
        ofTag "table" [
          ofTag "thead" [ofTag "tr" [ofTag "th" [text "a"],
            element "th" (Attributes.ofList [("align", "right")]) [text "b"]]],
          ofTag "tbody" [
            ofTag "tr" [ofTag "td" [text "1"],
              element "td" (Attributes.ofList [("align", "right")]) [text "2"],
              ofTag "td" [text "3"]],
            ofTag "tr" [ofTag "td" [text "4"]]]],
        ofTag "table" [
          ofTag "thead" [ofTag "tr" [
            element "th" (Attributes.ofList [("align", "center")]) [text "c"],
            ofTag "th" [text "d"]]]]] ∧
      ∀ t ∈ unlikeTables.tail, ∃ a c,
        (Passage.eventsAll (unlikeTables.dropLast.map Table.passage)).foldlM Assembly.step
            (Assembly.empty 3) = .ok a ∧
          t.passage.events.foldlM Assembly.step a = .ok ((a.push t.draft).withColumns c) ∧
          c.alignments = [] ∧ c.inHead = false := by
  obtain ⟨drafts, hdrafts⟩ : ∃ drafts,
      ofEvents 3 (Passage.eventsAll (unlikeTables.map Table.passage)) = .ok drafts :=
    Outcome.exists_eq_ok rfl
  have hplain : ∀ t ∈ unlikeTables, t.hasPlainCells = true := by decide
  obtain ⟨htables, hwhole⟩ := tables_of_ofEvents.2.2 3 _ drafts hdrafts
  refine ⟨drafts, hdrafts, hplain, htables unlikeTables rfl hplain, ?_, ?_⟩
  · cases hdrafts
    rfl
  · intro t hmem
    obtain rfl : t = ⟨[.center], [[.leaf (.text "c") rfl], [.leaf (.text "d") rfl]], []⟩ :=
      List.mem_singleton.1 hmem
    exact hwhole _ _ [] (by decide) (by decide)

end Draft

end NotebookTree
