import NotebookTree.Proofs.Prose.Text

/-!
# Elements of one kind of construct

The elements with a tag are collected from drafts in document order, and so are the passages of a
kind from a document, but for those that stand inside images. Tables and images have tags of their
own, so collecting the elements and collecting the passages comes to the same:
`Draft.withTagAll_ofPassages`.
-/

namespace NotebookTree

open Markdown (Construct ConstructKind Event Passage)

/-! ## Collecting -/

namespace Markdown.Passage

mutual

/-- The passages of a kind in a passage, but for those inside images and inside each other. -/
def ofKind (kind : ConstructKind) : Passage → List Passage
  | leaf _ _ => []
  | within construct contents =>
    if construct.kind = kind then [within construct contents]
    else if construct.kind = .image then []
    else ofKindAll kind contents

/-- The passages of a kind in a document, in order. -/
def ofKindAll (kind : ConstructKind) : List Passage → List Passage
  | [] => []
  | passage :: rest => ofKind kind passage ++ ofKindAll kind rest

end

end Markdown.Passage

namespace Draft

mutual

/-- The elements with a tag at and below a draft. -/
def withTag (tag : String) : Draft → List Draft
  | element name attributes children =>
    (if name = tag then [element name attributes children] else []) ++ withTagAll tag children
  | text _ => []
  | raw _ => []

/-- The elements with a tag at and below drafts, in document order. -/
def withTagAll (tag : String) : List Draft → List Draft
  | [] => []
  | draft :: rest => withTag tag draft ++ withTagAll tag rest

end

theorem withTagAll_append (tag : String) (first second : List Draft) :
    withTagAll tag (first ++ second) = withTagAll tag first ++ withTagAll tag second := by
  induction first with
  | nil => rfl
  | cons draft rest ih => rw [List.cons_append, withTagAll, withTagAll, ih, List.append_assoc]

theorem withTagAll_singleton (tag : String) (draft : Draft) :
    withTagAll tag [draft] = withTag tag draft := by
  rw [withTagAll, withTagAll, List.append_nil]

theorem withTag_of_ne {tag name : String} (h : name ≠ tag) (attributes : Attributes)
    (children : List Draft) :
    withTag tag (element name attributes children) = withTagAll tag children := by
  rw [withTag, if_neg h, List.nil_append]

theorem withTagAll_joinOnto (tag : String) (draft : Draft) (rest : List Draft) :
    withTagAll tag (joinOnto draft rest) = withTag tag draft ++ withTagAll tag rest := by
  unfold joinOnto
  split <;> rfl

/-- Joining concerns no elements. -/
theorem withTagAll_joined (tag : String) (drafts : List Draft) :
    withTagAll tag (joined drafts) = withTagAll tag drafts := by
  induction drafts with
  | nil => rfl
  | cons draft rest ih => rw [joined, withTagAll_joinOnto, ih, withTagAll]

/-! ## Constructs with a tag of their own -/

/-- Do only the constructs of the kind become elements with the tag? -/
def HasOwnTag (kind : ConstructKind) (tag : String) : Prop :=
  kind = .table ∧ tag = "table" ∨ kind = .image ∧ tag = "img"

theorem hasOwnTag_table : HasOwnTag .table "table" := .inl ⟨rfl, rfl⟩

theorem hasOwnTag_image : HasOwnTag .image "img" := .inr ⟨rfl, rfl⟩

theorem HasOwnTag.mem_tags {kind : ConstructKind} {tag : String} (h : HasOwnTag kind tag) :
    tag ∈ ["table", "img"] := by
  obtain ⟨-, rfl⟩ | ⟨-, rfl⟩ := h
  · exact List.mem_cons_self
  · exact List.mem_cons_of_mem _ List.mem_cons_self

theorem ne_of_mem_tags {tag name : String} (htag : tag ∈ ["table", "img"])
    (hname : name ∉ ["table", "img"]) : name ≠ tag :=
  fun heq ↦ hname (heq ▸ htag)

theorem withTagAll_leafDrafts {tag : String} (htag : tag ∈ ["table", "img"]) (event : Event) :
    withTagAll tag (leafDrafts event) = [] := by
  cases event with
  | taskMarker checked =>
    cases checked <;>
      exact (withTagAll_singleton ..).trans (withTag_of_ne (ne_of_mem_tags htag (by decide)) _ _)
  | footnoteReference label =>
    rw [leafDrafts, withTagAll_singleton, withTag_of_ne (ne_of_mem_tags htag (by decide)),
      withTagAll_singleton, withTag_of_ne (ne_of_mem_tags htag (by decide))]
    rfl
  | code value | hardBreak | rule =>
    exact (withTagAll_singleton ..).trans (withTag_of_ne (ne_of_mem_tags htag (by decide)) _ _)
  | _ => rfl

theorem headingTag_not_mem_tags (level : Nat) : "h" ++ toString level ∉ ["table", "img"] := by
  have hne {name : String} (h : name.toList.head? ≠ some 'h') : "h" ++ toString level ≠ name := by
    rintro rfl
    exact h (by rw [String.toList_append]; rfl)
  rw [List.mem_cons, List.mem_singleton]
  rintro (heq | heq)
  · exact hne (by decide) heq
  · exact hne (by decide) heq

/-- Any other construct leaves the elements with the tag to its contents, unless it is an image. A
table keeps their order if its heads come first. -/
theorem withTagAll_close {kind : ConstructKind} {tag : String} (h : HasOwnTag kind tag)
    (c : Columns) {construct : Construct} {children : List Draft} (hkind : construct.kind ≠ kind)
    (himage : construct.kind ≠ .image) (htable : construct.kind = .table → HeadsFirst children) :
    withTagAll tag (Assembly.close (c.frameKind construct) children) =
      withTagAll tag children := by
  have htag := h.mem_tags
  have hone {name : String} (hname : name ∉ ["table", "img"]) (attributes : Attributes)
      (inner : List Draft) : withTagAll tag [element name attributes inner] = withTagAll tag inner :=
    (withTagAll_singleton ..).trans (withTag_of_ne (ne_of_mem_tags htag hname) _ _)
  cases construct with
  | image destination title => exact absurd rfl himage
  | table alignments =>
    obtain ⟨rfl, -⟩ | ⟨-, rfl⟩ := h
    · exact absurd rfl hkind
    · have hrows (rows : List Draft) :
          withTagAll "img" (if rows.isEmpty then [] else [ofTag "tbody" rows]) =
            withTagAll "img" rows := by
        cases rows with
        | nil => rfl
        | cons row rest => exact hone (by decide) _ _
      show withTagAll "img" [element "table" _ (_ ++ _)] = withTagAll "img" children
      rw [withTagAll_singleton, withTag_of_ne (by decide), withTagAll_append, hrows,
        ← withTagAll_append, htable rfl]
  | heading level id classes extra => exact hone (headingTag_not_mem_tags level) _ _
  | codeBlock info =>
    exact (hone (by decide) _ _).trans (hone (by decide) _ _)
  | tableHead => exact (hone (by decide) _ _).trans (hone (by decide) _ _)
  | tableCell =>
    show withTagAll tag [element (if c.inHead then "th" else "td") _ children] = _
    exact hone (by cases c.inHead <;> decide) _ _
  | list start => cases start <;> exact hone (by decide) _ _
  | htmlBlock | other => rfl
  | _ => exact hone (by decide) _ _

/-! ## Collecting in documents -/

/-- The elements with a tag that a passage becomes where nothing is known of columns. -/
def elementsOf (tag : String) (passage : Passage) : List Draft :=
  withTagAll tag (ofPassage .none passage).1

variable {kind : ConstructKind} {tag : String}

mutual

theorem withTagAll_ofPassage (h : HasOwnTag kind tag) (c : Columns) :
    ∀ passage : Passage, kind = .table ∨ passage.headsFirst = true →
      (∀ found ∈ passage.ofKind kind, ∀ known,
        withTagAll tag (ofPassage known found).1 = elementsOf tag found) →
      withTagAll tag (ofPassage c passage).1 = (passage.ofKind kind).flatMap (elementsOf tag)
  | .leaf event _, _, _ => withTagAll_leafDrafts h.mem_tags event
  | .within construct contents, hheads, hform => by
    by_cases hkind : construct.kind = kind
    · have hfound : (Passage.within construct contents).ofKind kind =
          [.within construct contents] := by rw [Passage.ofKind, if_pos hkind]
      rw [hfound, hform _ (by rw [hfound]; exact List.mem_singleton_self _) c,
        List.flatMap_singleton]
    · rw [Passage.ofKind, if_neg hkind] at hform ⊢
      by_cases himage : construct.kind = .image
      · rw [if_pos himage]
        obtain ⟨rfl, rfl⟩ | ⟨rfl, -⟩ := h
        · cases construct <;> first | rfl | cases himage
        · exact absurd himage hkind
      · rw [if_neg himage] at hform ⊢
        have hcontents : kind = .table ∨ Passage.headsFirstAll contents = true :=
          hheads.imp_right fun hheads ↦ (Bool.and_eq_true_iff.1 hheads).2
        have htable (hisTable : construct.kind = .table) :
            HeadsFirst (joined (ofPassages (c.opened construct) contents).1) := by
          obtain rfl | hheads := hheads
          · exact absurd hisTable hkind
          · exact headsFirst_joined_ofPassages hheads hisTable _
        rw [ofPassage_within, withTagAll_close h c hkind himage htable, withTagAll_joined,
          withTagAll_ofPassages h _ contents hcontents hform]

/-- The elements with the tag are those that the passages of the kind become, in the same order. -/
theorem withTagAll_ofPassages (h : HasOwnTag kind tag) (c : Columns) :
    ∀ passages : List Passage, kind = .table ∨ Passage.headsFirstAll passages = true →
      (∀ found ∈ Passage.ofKindAll kind passages, ∀ known,
        withTagAll tag (ofPassage known found).1 = elementsOf tag found) →
      withTagAll tag (ofPassages c passages).1 =
        (Passage.ofKindAll kind passages).flatMap (elementsOf tag)
  | [], _, _ => rfl
  | passage :: rest, hheads, hform => by
    rw [Passage.ofKindAll, List.forall_mem_append] at hform
    have hfirst : kind = .table ∨ passage.headsFirst = true :=
      hheads.imp_right fun hheads ↦ (Bool.and_eq_true_iff.1 hheads).1
    have hrest : kind = .table ∨ Passage.headsFirstAll rest = true :=
      hheads.imp_right fun hheads ↦ (Bool.and_eq_true_iff.1 hheads).2
    rw [ofPassages_cons, withTagAll_append, withTagAll_ofPassage h c passage hfirst hform.1,
      withTagAll_ofPassages h _ rest hrest hform.2, Passage.ofKindAll, List.flatMap_append]

end

/-- If each passage of the kind becomes one element with the tag, and the same whatever is known of
columns, these are the elements with the tag in the document. -/
theorem withTagAll_of_ofEvents {Item : Type} {passageOf : Item → Passage} {draftOf : Item → Draft}
    {limit : Nat} {passages : List Passage} {items : List Item} {drafts : List Draft}
    (h : HasOwnTag kind tag) (hheads : kind = .table ∨ Passage.headsFirstAll passages = true)
    (hitems : Passage.ofKindAll kind passages = items.map passageOf)
    (hone : ∀ item ∈ items, ∀ known,
      withTagAll tag (ofPassage known (passageOf item)).1 = [draftOf item])
    (hdrafts : ofEvents limit (Passage.eventsAll passages) = .ok drafts) :
    withTagAll tag drafts = items.map draftOf := by
  have hform : ∀ found ∈ Passage.ofKindAll kind passages, ∀ known,
      withTagAll tag (ofPassage known found).1 = elementsOf tag found := by
    rw [hitems]
    refine List.forall_mem_map.2 fun item hmem known ↦ ?_
    exact (hone item hmem known).trans (hone item hmem .none).symm
  rw [ofEvents_eventsAll] at hdrafts
  split at hdrafts
  · cases hdrafts
    rw [withTagAll_joined, withTagAll_ofPassages h .none passages hheads hform, hitems,
      List.flatMap_map, List.map_eq_flatMap]
    exact List.flatMap_congr fun item hmem ↦ hone item hmem .none
  · cases hdrafts

/-! ## Passages in a document -/

/-- Passages are accepted unless they are deeper than the limit. -/
theorem exists_ofEvents_eventsAll_iff {limit : Nat} {passages : List Passage} :
    (∃ drafts, ofEvents limit (Passage.eventsAll passages) = .ok drafts) ↔
      Passage.depthAll passages ≤ limit := by
  rw [ofEvents_eventsAll]
  split
  · exact iff_of_true ⟨_, rfl⟩ ‹_›
  · exact iff_of_false nofun ‹_›

/-- In a run that succeeds, the events of each passage add its drafts to what is built so far. -/
theorem exists_foldlM_step_of_ofEvents {limit : Nat} {before after : List Event} {passage : Passage}
    {drafts : List Draft} (h : ofEvents limit (before ++ passage.events ++ after) = .ok drafts) :
    ∃ a, before.foldlM Assembly.step (Assembly.empty limit) = .ok a ∧
      passage.events.foldlM Assembly.step a =
        .ok (((ofPassage a.columns passage).1.foldl Assembly.push a).withColumns
          (ofPassage a.columns passage).2) := by
  obtain ⟨last, hrun, -⟩ := Outcome.bind_eq_ok.1 h
  rw [List.foldlM_append, List.foldlM_append] at hrun
  obtain ⟨filled, hboth, -⟩ := Outcome.bind_eq_ok.1 hrun
  obtain ⟨a, hbefore, hpassage⟩ := Outcome.bind_eq_ok.1 hboth
  refine ⟨a, hbefore, ?_⟩
  have hfits := ((Assembly.fits_empty limit).foldlM_step hbefore).1
  have hevents := Assembly.foldlM_step_events a hfits.length_le passage
  rw [hevents] at hpassage ⊢
  split at hpassage
  · rw [if_pos ‹_›]
  · cases hpassage

end Draft

end NotebookTree
