import NotebookTree.Proofs.Prose.Height
import NotebookTree.Proofs.Prose.Joining

/-!
# Text of a document

The text of a document is that of its events: texts, code, soft breaks and the labels of footnote
references, in order, without what stands inside images. Building drafts and lowering them keeps
this text where there is no raw markup. A table keeps it because its heads come before its rows.
-/

namespace NotebookTree

open Markdown (Construct ConstructKind Event Passage)
open Outcome

/-! ## Text of events -/

namespace Markdown

/-- The text of an event by itself. -/
def Event.ownText : Event → String
  | .text value => value
  | .code value => value
  | .softBreak => "\n"
  | .footnoteReference label => label
  | _ => ""

/-- Is it raw markup? -/
def Event.isMarkup : Event → Bool
  | .html _ => true
  | .inlineHtml _ => true
  | _ => false

/-- The texts of events in order, without those inside images, of which so many are open at
first. -/
def Event.visibleText : Nat → List Event → String
  | _, [] => ""
  | images, .start (.image _ _) :: rest => visibleText (images + 1) rest
  | images, .stop .image :: rest => visibleText (images - 1) rest
  | images, event :: rest => (if images = 0 then event.ownText else "") ++ visibleText images rest

namespace Passage

mutual

/-- The text of a passage. -/
def text : Passage → String
  | leaf event _ => event.ownText
  | within construct contents => if construct.kind = .image then "" else textAll contents

/-- The text of passages one after the other. -/
def textAll : List Passage → String
  | [] => ""
  | passage :: rest => text passage ++ textAll rest

end

mutual

/-- Do the heads of each table come before its rows, with nothing else in it? -/
def headsFirst : Passage → Bool
  | leaf _ _ => true
  | within construct contents =>
    (construct.kind != .table ||
      (contents.dropWhile (hasKindIn [.tableHead])).all (hasKindIn [.tableRow])) &&
    headsFirstAll contents

/-- Do the heads come before the rows in all tables of passages? -/
def headsFirstAll : List Passage → Bool
  | [] => true
  | passage :: rest => headsFirst passage && headsFirstAll rest

end

end Passage

namespace Event

/-- Only images hide text. -/
theorem visibleText_cons {event : Event} (images : Nat) (rest : List Event)
    (hstart : ∀ destination title, event ≠ .start (.image destination title))
    (hstop : event ≠ .stop .image) :
    visibleText images (event :: rest) =
      (if images = 0 then event.ownText else "") ++ visibleText images rest := by
  rw [visibleText]
  · exact fun destination title h ↦ hstart destination title h
  · exact hstop

mutual

theorem visibleText_events_append (images : Nat) (rest : List Event) :
    ∀ passage : Passage, visibleText images (passage.events ++ rest) =
      (if images = 0 then passage.text else "") ++ visibleText images rest
  | .leaf event hleaf => by
    apply visibleText_cons
    · rintro destination title rfl
      cases hleaf
    · rintro rfl
      cases hleaf
  | .within construct contents => by
    rw [Passage.events, Construct.around, List.cons_append, List.append_assoc,
      List.singleton_append, Passage.text]
    by_cases himage : construct.kind = .image
    · have hopened : visibleText images (.start construct :: (Passage.eventsAll contents ++
          .stop construct.kind :: rest)) =
          visibleText (images + 1) (Passage.eventsAll contents ++ .stop .image :: rest) := by
        cases construct <;> first | rfl | cases himage
      rw [hopened, visibleText_eventsAll_append, if_neg (Nat.succ_ne_zero images), if_pos himage,
        ite_self]
      rfl
    · have hstart : ∀ destination title,
          Event.start construct ≠ .start (.image destination title) := by
        intro destination title h
        cases h
        exact himage rfl
      have hstop : Event.stop construct.kind ≠ .stop .image := by
        intro h
        injection h with h
        exact himage h
      have hopening : Event.start construct ≠ .stop .image := nofun
      have hclosing : ∀ destination title,
          Event.stop construct.kind ≠ .start (.image destination title) := fun _ _ ↦ nofun
      rw [visibleText_cons _ _ hstart hopening, visibleText_eventsAll_append,
        visibleText_cons _ _ hclosing hstop, if_neg himage]
      simp [ownText]

/-- The text of the events of passages is that of the passages. -/
theorem visibleText_eventsAll_append (images : Nat) (rest : List Event) :
    ∀ passages : List Passage, visibleText images (Passage.eventsAll passages ++ rest) =
      (if images = 0 then Passage.textAll passages else "") ++ visibleText images rest
  | [] => by
    rw [Passage.textAll, ite_self, String.empty_append]
    rfl
  | passage :: passages => by
    rw [Passage.eventsAll, List.append_assoc, visibleText_events_append,
      visibleText_eventsAll_append, Passage.textAll]
    split
    · rw [String.append_assoc]
    · rfl

end

theorem visibleText_eventsAll (passages : List Passage) :
    visibleText 0 (Passage.eventsAll passages) = Passage.textAll passages := by
  have h := visibleText_eventsAll_append 0 [] passages
  rwa [List.append_nil, if_pos rfl, visibleText, String.append_empty] at h

end Event

end Markdown

/-! ## Text of drafts -/

namespace Draft

theorem textContents_append (first second : List Draft) :
    textContents (first ++ second) = textContents first ++ textContents second := by
  induction first with
  | nil => rw [List.nil_append, textContents, String.empty_append]
  | cons draft rest ih => rw [List.cons_append, textContents, textContents, ih, String.append_assoc]

theorem textContents_joinOnto (draft : Draft) (rest : List Draft) :
    textContents (joinOnto draft rest) = draft.textContent ++ textContents rest := by
  unfold joinOnto
  split
  · simp only [textContents, textContent, String.append_assoc]
  · simp only [textContents, textContent, String.empty_append]
  · rfl

/-- Joining keeps the text. -/
theorem textContents_joined (drafts : List Draft) :
    textContents (joined drafts) = textContents drafts := by
  induction drafts with
  | nil => rfl
  | cons draft rest ih => rw [joined, textContents_joinOnto, ih, textContents]

theorem haveRaw_append (first second : List Draft) :
    haveRaw (first ++ second) = (haveRaw first || haveRaw second) := by
  induction first with
  | nil => rfl
  | cons draft rest ih => rw [List.cons_append, haveRaw, haveRaw, ih, Bool.or_assoc]

theorem haveRaw_joinOnto (draft : Draft) (rest : List Draft) :
    haveRaw (joinOnto draft rest) = (draft.hasRaw || haveRaw rest) := by
  unfold joinOnto
  split <;> simp [haveRaw, hasRaw]

theorem haveRaw_joined (drafts : List Draft) : haveRaw (joined drafts) = haveRaw drafts := by
  induction drafts with
  | nil => rfl
  | cons draft rest ih => rw [joined, haveRaw_joinOnto, ih, haveRaw]

theorem haveRaw_filter {drafts : List Draft} (keep : Draft → Bool)
    (h : haveRaw drafts = false) : haveRaw (drafts.filter keep) = false := by
  induction drafts with
  | nil => rfl
  | cons draft rest ih =>
    rw [haveRaw, Bool.or_eq_false_iff] at h
    rw [List.filter_cons]
    split
    · rw [haveRaw, h.1, ih h.2, Bool.or_false]
    · exact ih h.2

/-! ## Text of lowered drafts -/

theorem settle_of_haveRaw_eq_false (limit : Nat) {drafts : List Draft}
    (h : haveRaw drafts = false) (lowered : List Node) :
    settle limit drafts lowered = .ok lowered := by
  rw [settle, any_isRaw_of_haveRaw_eq_false h]
  rfl

mutual

theorem exists_lower_of_hasRaw_eq_false (limit : Nat) :
    ∀ draft : Draft, draft.hasRaw = false →
      ∃ node, lower limit draft = .ok node ∧ node.textContent = draft.textContent
  | .text value, _ => ⟨.text value, rfl, rfl⟩
  | .raw markup, h => by cases h
  | .element tag attributes children, h => by
    rw [hasRaw] at h
    obtain ⟨nodes, hnodes, htext⟩ := exists_lowerEach_of_haveRaw_eq_false limit children h
    have hsettle := settle_of_haveRaw_eq_false limit h nodes
    refine ⟨.element tag attributes nodes, ?_, htext⟩
    exact bind_eq_ok.2 ⟨nodes, hnodes, bind_eq_ok.2 ⟨nodes, hsettle, rfl⟩⟩

theorem exists_lowerEach_of_haveRaw_eq_false (limit : Nat) :
    ∀ drafts : List Draft, haveRaw drafts = false →
      ∃ nodes, lowerEach limit drafts = .ok nodes ∧
        Node.textContents nodes = textContents drafts
  | [], _ => ⟨[], rfl, rfl⟩
  | draft :: rest, h => by
    rw [haveRaw, Bool.or_eq_false_iff] at h
    obtain ⟨node, hnode, htext⟩ := exists_lower_of_hasRaw_eq_false limit draft h.1
    obtain ⟨nodes, hnodes, htexts⟩ := exists_lowerEach_of_haveRaw_eq_false limit rest h.2
    refine ⟨node :: nodes, ?_, ?_⟩
    · exact bind_eq_ok.2 ⟨node, hnode, bind_eq_ok.2 ⟨nodes, hnodes, rfl⟩⟩
    · rw [Node.textContents, textContents, htext, htexts]

end

/-- Drafts without raw markup are lowered with their text, whatever the limit is. -/
theorem exists_lowerAll_of_haveRaw_eq_false (limit : Nat) {drafts : List Draft}
    (h : haveRaw drafts = false) :
    ∃ nodes, lowerAll limit drafts = .ok nodes ∧
      Node.textContents nodes = textContents drafts := by
  obtain ⟨nodes, hnodes, htext⟩ := exists_lowerEach_of_haveRaw_eq_false limit drafts h
  exact ⟨nodes, bind_eq_ok.2 ⟨nodes, hnodes, settle_of_haveRaw_eq_false limit h nodes⟩, htext⟩

/-! ## Text of closed constructs -/

theorem haveRaw_close (kind : FrameKind) {children : List Draft} (h : haveRaw children = false) :
    haveRaw (Assembly.close kind children) = false := by
  cases kind with
  | transparent => exact h
  | image attributes => rfl
  | table =>
    have hheads := haveRaw_filter Assembly.isTableHead h
    have hrows := haveRaw_filter (!Assembly.isTableHead ·) h
    simp only [Assembly.close, ofTag, haveRaw, hasRaw, haveRaw_append, hheads, Bool.false_or,
      Bool.or_false]
    split
    · rfl
    · simp only [haveRaw, hasRaw, hrows, Bool.or_false]
  | _ => simp [Assembly.close, ofTag, haveRaw, hasRaw, h]

/-- The heads of a table come first among its drafts. -/
def HeadsFirst (drafts : List Draft) : Prop :=
  drafts.filter Assembly.isTableHead ++ drafts.filter (!Assembly.isTableHead ·) = drafts

/-- A construct keeps the text of its contents, but for an image, which has none. -/
theorem textContents_close (c : Columns) {construct : Construct} {children : List Draft}
    (htable : construct.kind = .table → HeadsFirst children) :
    textContents (Assembly.close (c.frameKind construct) children) =
      if construct.kind = .image then "" else textContents children := by
  have hone (draft : Draft) : textContents [draft] = draft.textContent := by
    rw [textContents, textContents, String.append_empty]
  cases construct with
  | image destination title => rfl
  | table alignments =>
    have hrows (rows : List Draft) :
        textContents (if rows.isEmpty then [] else [ofTag "tbody" rows]) = textContents rows := by
      cases rows with
      | nil => rfl
      | cons row rest => exact hone _
    show textContents [ofTag "table" (_ ++ _)] = textContents children
    rw [hone, ofTag, textContent, textContents_append, hrows, ← textContents_append, htable rfl]
  | codeBlock info | tableHead =>
    show textContents [ofTag _ [element _ _ children]] = textContents children
    rw [hone, ofTag, textContent, hone, textContent]
  | list start => cases start <;> exact hone _
  | htmlBlock | other => rfl
  | _ => exact hone _

/-! ## Text of the drafts of passages -/

/-- Drafts of rows are elements that are no heads. -/
theorem forall_mem_ofPassages_of_rows {passages : List Passage}
    (h : passages.all (Passage.hasKindIn [.tableRow]) = true) (c : Columns) :
    ∀ draft ∈ (ofPassages c passages).1,
      draft.isElement = true ∧ Assembly.isTableHead draft = false := by
  induction passages generalizing c with
  | nil => exact fun draft hmem ↦ absurd hmem List.not_mem_nil
  | cons passage rest ih =>
    rw [List.all_cons, Bool.and_eq_true] at h
    rw [ofPassages_cons, List.forall_mem_append]
    refine ⟨?_, ih h.2 _⟩
    cases passage with
    | leaf event isLeaf => cases h.1
    | within construct contents =>
      obtain rfl : construct = .tableRow := by
        cases construct <;> first | rfl | cases h.1
      intro draft hmem
      rw [List.mem_singleton.1 hmem]
      exact ⟨rfl, rfl⟩

/-- If the heads of a table come before its rows, so do their drafts. -/
theorem headsFirst_ofPassages {passages : List Passage}
    (h : (passages.dropWhile (Passage.hasKindIn [.tableHead])).all
      (Passage.hasKindIn [.tableRow]) = true) (c : Columns) :
    HeadsFirst (ofPassages c passages).1 ∧
      ∀ draft ∈ (ofPassages c passages).1, draft.isElement = true := by
  induction passages generalizing c with
  | nil => exact ⟨rfl, fun draft hmem ↦ absurd hmem List.not_mem_nil⟩
  | cons passage rest ih =>
    by_cases hhead : passage.hasKindIn [.tableHead] = true
    · rw [List.dropWhile_cons_of_pos hhead] at h
      obtain ⟨hfirst, helements⟩ := ih h (ofPassage c passage).2
      cases passage with
      | leaf event isLeaf => cases hhead
      | within construct contents =>
        obtain rfl : construct = .tableHead := by
          cases construct <;> first | rfl | cases hhead
        refine ⟨congrArg (_ :: ·) hfirst, ?_⟩
        exact List.forall_mem_cons.2 ⟨rfl, helements⟩
    · rw [List.dropWhile_cons_of_neg hhead] at h
      have hrows := forall_mem_ofPassages_of_rows h c
      refine ⟨?_, fun draft hmem ↦ (hrows draft hmem).1⟩
      have hnone : (ofPassages c (passage :: rest)).1.filter Assembly.isTableHead = [] :=
        List.filter_eq_nil_iff.2 fun draft hmem ↦ by simp [(hrows draft hmem).2]
      have hall : (ofPassages c (passage :: rest)).1.filter (!Assembly.isTableHead ·) =
          (ofPassages c (passage :: rest)).1 :=
        List.filter_eq_self.2 fun draft hmem ↦ by simp [(hrows draft hmem).2]
      rw [HeadsFirst, hnone, hall, List.nil_append]

theorem headsFirst_joined_ofPassages {construct : Construct} {contents : List Passage}
    (h : (Passage.within construct contents).headsFirst = true)
    (hkind : construct.kind = .table) (c : Columns) :
    HeadsFirst (joined (ofPassages c contents).1) := by
  rw [Passage.headsFirst, Bool.and_eq_true, Bool.or_eq_true, bne_iff_ne] at h
  obtain hnot | hheads := h.1
  · exact absurd hkind hnot
  · obtain ⟨hfirst, helements⟩ := headsFirst_ofPassages hheads c
    rwa [joined_of_forall_isElement helements]

mutual

theorem textContents_ofPassage (c : Columns) :
    ∀ passage : Passage, passage.headsFirst = true →
      textContents (ofPassage c passage).1 = passage.text
  | .leaf event _, _ => by
    cases event with
    | taskMarker checked => cases checked <;> rfl
    | _ => simp [ofPassage, leafDrafts, textContents, textContent, ofTag, Passage.text,
        Event.ownText]
  | .within construct contents, h => by
    have hcontents : Passage.headsFirstAll contents = true := (Bool.and_eq_true_iff.1 h).2
    rw [ofPassage_within,
      textContents_close c fun hkind ↦ headsFirst_joined_ofPassages h hkind _,
      textContents_joined, textContents_ofPassages _ contents hcontents, Passage.text]

theorem textContents_ofPassages (c : Columns) :
    ∀ passages : List Passage, Passage.headsFirstAll passages = true →
      textContents (ofPassages c passages).1 = Passage.textAll passages
  | [], _ => rfl
  | passage :: rest, h => by
    rw [Passage.headsFirstAll, Bool.and_eq_true] at h
    rw [ofPassages_cons, textContents_append, textContents_ofPassage c passage h.1,
      textContents_ofPassages _ rest h.2, Passage.textAll]

end

mutual

theorem haveRaw_ofPassage (c : Columns) :
    ∀ passage : Passage, (∀ event ∈ passage.events, event.isMarkup = false) →
      haveRaw (ofPassage c passage).1 = false
  | .leaf event _, h => by
    have hmarkup := h event List.mem_cons_self
    cases event with
    | html markup => cases hmarkup
    | inlineHtml markup => cases hmarkup
    | taskMarker checked => cases checked <;> rfl
    | _ => rfl
  | .within construct contents, h => by
    have hcontents : ∀ event ∈ Passage.eventsAll contents, event.isMarkup = false :=
      fun event hmem ↦ h event (List.mem_cons_of_mem _ (List.mem_append_left _ hmem))
    rw [ofPassage_within]
    apply haveRaw_close
    rw [haveRaw_joined]
    exact haveRaw_ofPassages _ contents hcontents

theorem haveRaw_ofPassages (c : Columns) :
    ∀ passages : List Passage,
      (∀ event ∈ Passage.eventsAll passages, event.isMarkup = false) →
        haveRaw (ofPassages c passages).1 = false
  | [], _ => rfl
  | passage :: rest, h => by
    rw [Passage.eventsAll, List.forall_mem_append] at h
    rw [ofPassages_cons, haveRaw_append, haveRaw_ofPassage c passage h.1,
      haveRaw_ofPassages _ rest h.2]
    rfl

end

/-- The drafts of a well-nested text without raw markup are lowered within each limit, and the
text of what they become is that of the events. -/
theorem textContents_lowerAll_ofEvents {passages : List Passage} {limit : Nat}
    {drafts : List Draft}
    (hmarkup : ∀ event ∈ Passage.eventsAll passages, event.isMarkup = false)
    (hheads : Passage.headsFirstAll passages = true)
    (hdrafts : ofEvents limit (Passage.eventsAll passages) = .ok drafts) (limit' : Nat) :
    ∃ nodes, lowerAll limit' drafts = .ok nodes ∧
      Node.textContents nodes = Event.visibleText 0 (Passage.eventsAll passages) := by
  rw [ofEvents_eventsAll] at hdrafts
  split at hdrafts
  · cases hdrafts
    have hraw : haveRaw (joined (ofPassages .none passages).1) = false := by
      rw [haveRaw_joined]
      exact haveRaw_ofPassages .none passages hmarkup
    obtain ⟨nodes, hnodes, htext⟩ := exists_lowerAll_of_haveRaw_eq_false limit' hraw
    refine ⟨nodes, hnodes, ?_⟩
    rw [htext, textContents_joined, textContents_ofPassages .none passages hheads,
      Event.visibleText_eventsAll]
  · cases hdrafts

/-- Each kind of text, in a paragraph with an image and in a table. -/
def textKinds : List Passage :=
  [.within .paragraph
      [.leaf (.text "a") (Eq.refl true), .within .emphasis [.leaf (.code "b") rfl],
        .leaf .softBreak (Eq.refl true),
        .within (.image "c.png" "") [.leaf (.text "c") rfl], .leaf (.footnoteReference "d") rfl],
    .within (.table [.unspecified])
      [.within .tableHead [.within .tableCell [.leaf (.text "x") rfl]],
        .within .tableRow [.within .tableCell [.leaf (.text "y") rfl]]]]

theorem textContents_lowerAll_ofEvents_textKinds :
    (∀ event ∈ Passage.eventsAll textKinds, event.isMarkup = false) ∧
      Passage.headsFirstAll textKinds = true ∧
      ∃ drafts nodes, ofEvents 3 (Passage.eventsAll textKinds) = .ok drafts ∧
        lowerAll 1 drafts = .ok nodes ∧ Node.textContents nodes = "ab\ndxy" := by
  have hmarkup : ∀ event ∈ Passage.eventsAll textKinds, event.isMarkup = false := by decide
  have hheads : Passage.headsFirstAll textKinds = true := by decide
  obtain ⟨drafts, hdrafts⟩ : ∃ drafts,
      ofEvents 3 (Passage.eventsAll textKinds) = .ok drafts := exists_eq_ok rfl
  obtain ⟨nodes, hnodes, htext⟩ := textContents_lowerAll_ofEvents hmarkup hheads hdrafts 1
  exact ⟨hmarkup, hheads, drafts, nodes, hdrafts, hnodes, htext.trans rfl⟩

end Draft

end NotebookTree
