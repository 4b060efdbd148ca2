import NotebookTree.Proofs.Markdown.Passage
import NotebookTree.Proofs.Prose.Nesting

/-!
# Drafts of passages

`Draft.joined` joins texts that meet in a list, and raw markup that meets. `Draft.ofPassage` gives
the drafts of a passage by recursion on it; as tables are read, it passes on what is known of their
columns. `Assembly.foldlM_step_eventsAll` says that folding the events of passages into an assembly
adds these drafts to the innermost open construct, or fails if the passages are too deep for the
room that is left.
-/

namespace NotebookTree

open Markdown (Construct ConstructKind Event Passage)

/-! ## Joined drafts -/

namespace Draft

/-- A draft before others, of which it takes over the first if both are texts or raw markup. -/
def joinOnto : Draft → List Draft → List Draft
  | text value, text next :: rest => text (value ++ next) :: rest
  | raw markup, raw next :: rest => raw (markup ++ next) :: rest
  | draft, rest => draft :: rest

/-- Drafts in which no text stands next to a text and no raw markup next to raw markup. -/
def joined : List Draft → List Draft
  | [] => []
  | draft :: rest => joinOnto draft (joined rest)

/-- Do two drafts become one when they meet? -/
def meets : Draft → Draft → Bool
  | text _, text _ => true
  | raw _, raw _ => true
  | _, _ => false

theorem joinOnto_of_not_meets {draft next : Draft} {rest : List Draft}
    (h : draft.meets next = false) : joinOnto draft (next :: rest) = draft :: next :: rest := by
  cases draft <;> cases next <;> first | rfl | cases h

/-- What stands first among joined drafts is of the kind of the first draft. -/
theorem exists_joinOnto_eq_cons (draft : Draft) (rest : List Draft) :
    ∃ first others, joinOnto draft rest = first :: others ∧
      ∀ before : Draft, before.meets first = before.meets draft := by
  unfold joinOnto
  split
  · exact ⟨_, _, rfl, fun before ↦ by cases before <;> rfl⟩
  · exact ⟨_, _, rfl, fun before ↦ by cases before <;> rfl⟩
  · exact ⟨draft, rest, rfl, fun _ ↦ rfl⟩

theorem joined_cons_of_not_meets {draft next : Draft} {rest : List Draft}
    (h : draft.meets next = false) :
    joined (draft :: next :: rest) = draft :: joined (next :: rest) := by
  rw [joined, joined]
  obtain ⟨first, others, hfirst, hmeets⟩ := exists_joinOnto_eq_cons next (joined rest)
  rw [hfirst]
  exact joinOnto_of_not_meets ((hmeets draft).trans h)

theorem joinOnto_text_text (value next : String) (rest : List Draft) :
    joinOnto (text (value ++ next)) rest = joinOnto (text value) (joinOnto (text next) rest) := by
  cases rest with
  | nil => rfl
  | cons draft rest => cases draft <;> simp [joinOnto, String.append_assoc]

theorem joinOnto_raw_raw (markup next : String) (rest : List Draft) :
    joinOnto (raw (markup ++ next)) rest = joinOnto (raw markup) (joinOnto (raw next) rest) := by
  cases rest with
  | nil => rfl
  | cons draft rest => cases draft <;> simp [joinOnto, String.append_assoc]

/-- Adding drafts one after the other joins them with the latest draft before them. -/
theorem foldl_pushMerged_cons (drafts latest : List Draft) (draft : Draft) :
    drafts.foldl pushMerged (draft :: latest) = (joined (draft :: drafts)).reverse ++ latest := by
  induction drafts generalizing draft latest with
  | nil => cases draft <;> rfl
  | cons next rest ih =>
    rw [List.foldl_cons]
    cases hmeets : draft.meets next with
    | false =>
      have hpush : pushMerged (draft :: latest) next = next :: draft :: latest := by
        cases draft <;> cases next <;> first | rfl | cases hmeets
      rw [hpush, ih, joined_cons_of_not_meets hmeets, List.reverse_cons, List.append_assoc,
        List.singleton_append]
    | true =>
      cases draft with
      | element tag attributes children => cases hmeets
      | text value =>
        cases next with
        | text more => rw [pushMerged, ih, joined, joined, joined, joinOnto_text_text]
        | _ => cases hmeets
      | raw markup =>
        cases next with
        | raw more => rw [pushMerged, ih, joined, joined, joined, joinOnto_raw_raw]
        | _ => cases hmeets

theorem reverse_foldl_pushMerged_nil (drafts : List Draft) :
    (drafts.foldl pushMerged []).reverse = joined drafts := by
  cases drafts with
  | nil => rfl
  | cons draft rest =>
    have hfirst : pushMerged [] draft = [draft] := by cases draft <;> rfl
    rw [List.foldl_cons, hfirst, foldl_pushMerged_cons, List.append_nil, List.reverse_reverse]

/-- Elements never meet. -/
theorem joined_of_forall_isElement {drafts : List Draft} (h : ∀ draft ∈ drafts, draft.isElement) :
    joined drafts = drafts := by
  induction drafts with
  | nil => rfl
  | cons draft rest ih =>
    have hrest := ih fun other hmem ↦ h other (List.mem_cons_of_mem _ hmem)
    rw [joined, hrest]
    cases draft with
    | element tag attributes children => rfl
    | text value => exact absurd (h _ List.mem_cons_self) Bool.false_ne_true
    | raw markup => exact absurd (h _ List.mem_cons_self) Bool.false_ne_true

end Draft

/-! ## Columns of tables -/

/-- What is known of the columns of a table while it is read. -/
structure Columns where
  alignments : List Markdown.Alignment
  inHead : Bool
  /-- The number of cells before the next one of its row. -/
  column : Nat

namespace Columns

/-- Before and after all tables. -/
def none : Columns := ⟨[], false, 0⟩

/-- What is known inside a construct when it opens. -/
def opened (c : Columns) : Construct → Columns
  | .table alignments => { c with alignments }
  | .tableHead => { c with inHead := true, column := 0 }
  | .tableRow => { c with column := 0 }
  | _ => c

/-- What is known after a construct, given what is known at its end. -/
def closed (c : Columns) : Construct → Columns
  | .table _ => { c with alignments := [] }
  | .tableHead => { c with inHead := false }
  | .tableCell => { c with column := c.column + 1 }
  | _ => c

end Columns

namespace Assembly

/-- The columns that an assembly knows. -/
def columns (a : Assembly) : Columns := ⟨a.alignments, a.inHead, a.column⟩

/-- The assembly with other columns. -/
def withColumns (a : Assembly) (c : Columns) : Assembly :=
  { a with alignments := c.alignments, inHead := c.inHead, column := c.column }

end Assembly

/-- What a construct becomes, given the columns that are known when it opens. -/
def Columns.frameKind (c : Columns) (construct : Construct) : FrameKind :=
  ((Assembly.empty 0).withColumns c).frameKind construct

/-! ## Drafts of passages -/

/-- The drafts of a leaf. -/
def leafDrafts : Event → List Draft
  | .start _ | .stop _ | .formula _ => []
  | .text value => [.text value]
  | .code value => [.ofTag "code" [.text value]]
  | .html markup | .inlineHtml markup => [.raw markup]
  | .footnoteReference label =>
    [.element "sup" (Attributes.ofList [("class", "footnote-reference")])
      [.element "a" (Attributes.ofList [("href", "#fn-" ++ label)]) [.text label]]]
  | .softBreak => [.text "\n"]
  | .hardBreak => [.ofTag "br" []]
  | .rule => [.ofTag "hr" []]
  | .taskMarker false =>
    [.element "input" (Attributes.ofList [("type", "checkbox"), ("disabled", "")]) []]
  | .taskMarker true =>
    [.element "input"
      (Attributes.ofList [("type", "checkbox"), ("disabled", ""), ("checked", "")]) []]

namespace Draft

mutual

/-- The drafts of a passage, and the columns that are known after it. -/
def ofPassage (c : Columns) : Passage → List Draft × Columns
  | .leaf event _ => (leafDrafts event, c)
  | .within construct contents =>
    let (inner, after) := ofPassages (c.opened construct) contents
    (Assembly.close (c.frameKind construct) (joined inner), after.closed construct)

/-- The drafts of passages one after the other, and the columns that are known after them. -/
def ofPassages (c : Columns) : List Passage → List Draft × Columns
  | [] => ([], c)
  | passage :: rest =>
    let (first, c) := ofPassage c passage
    let (others, c) := ofPassages c rest
    (first ++ others, c)

end

theorem ofPassage_within (c : Columns) (construct : Construct) (contents : List Passage) :
    ofPassage c (.within construct contents) =
      (Assembly.close (c.frameKind construct) (joined (ofPassages (c.opened construct) contents).1),
        (ofPassages (c.opened construct) contents).2.closed construct) := rfl

theorem ofPassages_cons (c : Columns) (passage : Passage) (rest : List Passage) :
    ofPassages c (passage :: rest) =
      ((ofPassage c passage).1 ++ (ofPassages (ofPassage c passage).2 rest).1,
        (ofPassages (ofPassage c passage).2 rest).2) := rfl

end Draft

/-! ## Folding the events of passages -/

namespace Assembly

theorem withColumns_push (a : Assembly) (draft : Draft) (c : Columns) :
    (a.push draft).withColumns c = (a.withColumns c).push draft := by
  unfold push
  split
  · next h => simp only [withColumns, h]
  · next h => simp only [withColumns, h]

theorem withColumns_foldl_push (drafts : List Draft) (a : Assembly) (c : Columns) :
    (drafts.foldl push a).withColumns c = drafts.foldl push (a.withColumns c) := by
  induction drafts generalizing a with
  | nil => rfl
  | cons draft rest ih => rw [List.foldl_cons, List.foldl_cons, ih, withColumns_push]

theorem columns_withColumns (a : Assembly) (c : Columns) : (a.withColumns c).columns = c := rfl

theorem withColumns_foldl_push_withColumns (drafts : List Draft) (a : Assembly) (c c' : Columns) :
    (drafts.foldl push (a.withColumns c)).withColumns c' =
      (drafts.foldl push a).withColumns c' := by
  rw [withColumns_foldl_push, withColumns_foldl_push]
  rfl

/-- The drafts that are added while a construct is open are joined to its contents. -/
theorem foldl_push_of_frames_eq_cons (drafts : List Draft) {a : Assembly} {frame : Frame}
    {rest : List Frame} (h : a.frames = frame :: rest) :
    drafts.foldl push a = { a with
      frames := ⟨frame.kind, drafts.foldl Draft.pushMerged frame.children⟩ :: rest } := by
  induction drafts generalizing a frame with
  | nil => rw [List.foldl_nil, List.foldl_nil, ← h]
  | cons draft others ih =>
    have hpush : a.push draft = { a with
        frames := ⟨frame.kind, Draft.pushMerged frame.children draft⟩ :: rest } := by
      rw [push, h]
    rw [List.foldl_cons, hpush, ih rfl, List.foldl_cons]

/-- The drafts that are added outside all constructs are joined to those there. -/
theorem foldl_push_of_frames_eq_nil (drafts : List Draft) {a : Assembly} (h : a.frames = []) :
    drafts.foldl push a = { a with top := drafts.foldl Draft.pushMerged a.top } := by
  induction drafts generalizing a with
  | nil => rfl
  | cons draft others ih =>
    have hpush : a.push draft = { a with top := Draft.pushMerged a.top draft } := by
      rw [push, h]
    rw [List.foldl_cons, hpush]
    exact ih h

/-- Adding drafts opens and closes nothing. -/
theorem length_frames_foldl_push (drafts : List Draft) (a : Assembly) :
    (drafts.foldl push a).frames.length = a.frames.length := by
  induction drafts generalizing a with
  | nil => rfl
  | cons draft rest ih => rw [List.foldl_cons, ih, length_frames_push]

/-- A leaf adds its drafts. -/
theorem step_of_isLeaf {event : Event} (h : event.isLeaf = true) (a : Assembly) :
    a.step event = .ok ((leafDrafts event).foldl push a) := by
  cases event with
  | start construct => cases h
  | stop kind => cases h
  | taskMarker checked => cases checked <;> rfl
  | _ => rfl

theorem start_eq (a : Assembly) (construct : Construct) :
    a.start construct =
      if a.limit ≤ a.frames.length then .error (.tooDeep a.limit)
      else .ok { a.withColumns (a.columns.opened construct) with
        frames := ⟨a.columns.frameKind construct, []⟩ :: a.frames } := by
  cases construct <;> rfl

/-- Closing a construct adds what it becomes to the construct around it. -/
theorem stop_eq {a : Assembly} (construct : Construct) {c : Columns} {children : List Draft}
    {rest : List Frame} (h : a.frames = ⟨c.frameKind construct, children⟩ :: rest) :
    a.stop construct.kind =
      .ok (((close (c.frameKind construct) children.reverse).foldl push
        { a with frames := rest }).withColumns (a.columns.closed construct)) := by
  rw [withColumns_foldl_push]
  cases construct with
  | list start => cases start <;> simp only [Construct.kind, stop, leave, h] <;> rfl
  | _ => simp only [Construct.kind, stop, leave, h]; rfl

/-- A construct around contents that are folded in opens, is filled and closes. -/
theorem foldlM_step_around {a opened : Assembly} {construct : Construct} {events : List Event}
    {drafts : List Draft} {c : Columns} (hroom : ¬a.limit ≤ a.frames.length)
    (hopened : opened = { a.withColumns (a.columns.opened construct) with
      frames := ⟨a.columns.frameKind construct, []⟩ :: a.frames })
    (hinner : events.foldlM step opened = .ok ((drafts.foldl push opened).withColumns c)) :
    (construct.around events).foldlM step a =
      .ok (((close (a.columns.frameKind construct) (Draft.joined drafts)).foldl push a).withColumns
        (c.closed construct)) := by
  have hframes : opened.frames = ⟨a.columns.frameKind construct, []⟩ :: a.frames := by
    rw [hopened]
  have hfilled := foldl_push_of_frames_eq_cons drafts hframes
  have hstart : a.step (.start construct) = .ok opened := by
    rw [step, start_eq, if_neg hroom, hopened]
  have hclosing : ((drafts.foldl push opened).withColumns c).step (.stop construct.kind) =
      .ok (((close (a.columns.frameKind construct) (Draft.joined drafts)).foldl push a).withColumns
        (c.closed construct)) := by
    have hstop := stop_eq (a := (drafts.foldl push opened).withColumns c) construct
      (congrArg frames hfilled)
    have hrest : { (drafts.foldl push opened).withColumns c with frames := a.frames } =
        a.withColumns c := by
      rw [hfilled, hopened]
      rfl
    rw [step, hstop, hrest, Draft.reverse_foldl_pushMerged_nil, columns_withColumns,
      withColumns_foldl_push_withColumns]
  rw [Construct.around, List.foldlM_cons, hstart]
  show (events ++ [Event.stop construct.kind]).foldlM step opened = _
  rw [List.foldlM_append, hinner]
  show [Event.stop construct.kind].foldlM step ((drafts.foldl push opened).withColumns c) = _
  rw [List.foldlM_cons, hclosing]
  rfl

mutual

theorem foldlM_step_events (a : Assembly) (h : a.frames.length ≤ a.limit) :
    ∀ passage : Passage, passage.events.foldlM step a =
      if a.frames.length + passage.depth ≤ a.limit then
        .ok (((Draft.ofPassage a.columns passage).1.foldl push a).withColumns
          (Draft.ofPassage a.columns passage).2)
      else .error (.tooDeep a.limit)
  | .leaf event hleaf => by
    have hcolumns : ((leafDrafts event).foldl push a).withColumns a.columns =
        (leafDrafts event).foldl push a := withColumns_foldl_push _ a a.columns
    rw [Passage.events, Passage.depth, Nat.add_zero, if_pos h, Draft.ofPassage, hcolumns,
      List.foldlM_cons, step_of_isLeaf hleaf]
    rfl
  | .within construct contents => by
    rw [Passage.events, Passage.depth]
    by_cases hroom : a.limit ≤ a.frames.length
    · have hdeep : ¬a.frames.length + (Passage.depthAll contents + 1) ≤ a.limit := by omega
      rw [if_neg hdeep, Construct.around, List.foldlM_cons, step, start_eq, if_pos hroom]
      rfl
    · have hinner := foldlM_step_eventsAll
        { a.withColumns (a.columns.opened construct) with
          frames := ⟨a.columns.frameKind construct, []⟩ :: a.frames }
        (Nat.succ_le_of_lt (Nat.lt_of_not_le hroom)) contents
      by_cases hdepth : a.frames.length + (Passage.depthAll contents + 1) ≤ a.limit
      · have hfits : a.frames.length + 1 + Passage.depthAll contents ≤ a.limit := by omega
        rw [if_pos hdepth]
        exact foldlM_step_around hroom rfl (hinner.trans (if_pos hfits))
      · have hdeep : ¬a.frames.length + 1 + Passage.depthAll contents ≤ a.limit := by omega
        rw [if_neg hdepth, Construct.around, List.foldlM_cons, step, start_eq, if_neg hroom]
        refine (List.foldlM_append ..).trans ?_
        rw [hinner.trans (if_neg hdeep)]
        rfl

/-- The events of passages add the drafts of the passages, if there is room for their depth. -/
theorem foldlM_step_eventsAll (a : Assembly) (h : a.frames.length ≤ a.limit) :
    ∀ passages : List Passage, (Passage.eventsAll passages).foldlM step a =
      if a.frames.length + Passage.depthAll passages ≤ a.limit then
        .ok (((Draft.ofPassages a.columns passages).1.foldl push a).withColumns
          (Draft.ofPassages a.columns passages).2)
      else .error (.tooDeep a.limit)
  | [] => by
    rw [Passage.depthAll, Nat.add_zero, if_pos h]
    rfl
  | passage :: rest => by
    rw [Passage.eventsAll, List.foldlM_append, foldlM_step_events a h passage, Passage.depthAll]
    by_cases hfirst : a.frames.length + passage.depth ≤ a.limit
    · have hframes : (((Draft.ofPassage a.columns passage).1.foldl push a).withColumns
          (Draft.ofPassage a.columns passage).2).frames.length = a.frames.length :=
        length_frames_foldl_push (Draft.ofPassage a.columns passage).1 a
      have hlimit : (((Draft.ofPassage a.columns passage).1.foldl push a).withColumns
          (Draft.ofPassage a.columns passage).2).limit = a.limit :=
        limit_foldl_push (Draft.ofPassage a.columns passage).1 a
      have hrest := foldlM_step_eventsAll
        (((Draft.ofPassage a.columns passage).1.foldl push a).withColumns
          (Draft.ofPassage a.columns passage).2)
        (by rw [hlimit, hframes]; exact h) rest
      rw [if_pos hfirst]
      refine hrest.trans ?_
      rw [hlimit, hframes]
      by_cases hothers : a.frames.length + Passage.depthAll rest ≤ a.limit
      · have hboth : a.frames.length + max passage.depth (Passage.depthAll rest) ≤ a.limit := by
          omega
        rw [if_pos hothers, if_pos hboth, Draft.ofPassages_cons, columns_withColumns,
          withColumns_foldl_push_withColumns, List.foldl_append]
      · have hdeep : ¬a.frames.length + max passage.depth (Passage.depthAll rest) ≤ a.limit := by
          omega
        rw [if_neg hothers, if_neg hdeep]
    · have hdeep : ¬a.frames.length + max passage.depth (Passage.depthAll rest) ≤ a.limit := by
        omega
      rw [if_neg hfirst, if_neg hdeep]
      rfl

end

end Assembly

/-- The drafts of a well-nested text are those of its passages, if the limit is not below their
depth. -/
theorem Draft.ofEvents_eventsAll (limit : Nat) (passages : List Passage) :
    ofEvents limit (Passage.eventsAll passages) =
      if Passage.depthAll passages ≤ limit then
        .ok (joined (ofPassages .none passages).1)
      else .error (.tooDeep limit) := by
  have hrun := Assembly.foldlM_step_eventsAll (Assembly.empty limit) (Nat.zero_le _) passages
  have hlength : (Assembly.empty limit).frames.length + Passage.depthAll passages =
      Passage.depthAll passages := Nat.zero_add _
  rw [hlength] at hrun
  rw [ofEvents, hrun]
  by_cases hdepth : Passage.depthAll passages ≤ limit
  · have hlimit : Passage.depthAll passages ≤ (Assembly.empty limit).limit := hdepth
    rw [if_pos hlimit, if_pos hdepth, Assembly.foldl_push_of_frames_eq_nil _ rfl,
      ← reverse_foldl_pushMerged_nil]
    rfl
  · have hlimit : ¬Passage.depthAll passages ≤ (Assembly.empty limit).limit := hdepth
    rw [if_neg hlimit, if_neg hdepth]
    rfl

end NotebookTree
