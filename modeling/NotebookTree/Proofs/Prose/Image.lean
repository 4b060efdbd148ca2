import NotebookTree.Proofs.Prose.Elements

/-!
# Images

An image becomes an element without children, and what stands in it is left only as a text in its
`alt` attribute. The text of an image that stands in another is in an attribute by then, and so it
is missed: `Draft.images_of_ofEvents` says that the `alt` attribute has the text of the events
without those inside nested images, and that this is all of the text exactly if nested images have
none.
-/

namespace NotebookTree

open Markdown (Construct ConstructKind Event Passage)

/-! ## Images by themselves -/

namespace Markdown

/-- All texts of events in order, with those inside images. -/
def Event.fullText (events : List Event) : String :=
  String.join (events.map Event.ownText)

/-- An image with the passages in it. -/
structure Image where
  destination : String
  title : String
  contents : List Passage

namespace Image

/-- The image as a passage. -/
def passage (i : Image) : Passage :=
  .within (.image i.destination i.title) i.contents

/-- The attributes of an image. Texts inside nested images are left out. -/
def attributes (i : Image) : Attributes :=
  (Assembly.targetAttributes "src" i.destination i.title).insert "alt"
    (Event.visibleText 0 (Passage.eventsAll i.contents))

/-- What an image becomes. -/
def draft (i : Image) : Draft :=
  .element "img" i.attributes []

end Image

/-! ## Visible text and all text -/

theorem Event.fullText_append (first second : List Event) :
    fullText (first ++ second) = fullText first ++ fullText second := by
  rw [fullText, List.map_append, String.join_append]
  rfl

theorem Event.fullText_singleton (event : Event) : fullText [event] = event.ownText := by
  rw [fullText, List.map_singleton, String.join_cons, String.join_nil, String.append_empty]

theorem Event.fullText_around (construct : Construct) (inner : List Event) :
    fullText (construct.around inner) = fullText inner := by
  have hstart : fullText [.start construct] = "" := fullText_singleton _
  have hstop : fullText [.stop construct.kind] = "" := fullText_singleton _
  rw [Construct.around, ← List.singleton_append, fullText_append, fullText_append, hstart, hstop,
    String.empty_append, String.append_empty]

/-- If neither of two parts is longer than its counterpart, the parts are equal when they are
together. -/
theorem append_eq_append_iff_of_length_le {first second first' second' : String}
    (hfirst : first.length ≤ first'.length) (hsecond : second.length ≤ second'.length) :
    first ++ second = first' ++ second' ↔ first = first' ∧ second = second' := by
  constructor
  · intro h
    have hlength : first.length + second.length = first'.length + second'.length := by
      rw [← String.length_append, h, String.length_append]
    have hsame : first.toList.length = first'.toList.length := by
      rw [String.length_toList, String.length_toList]
      omega
    have hlists : first.toList ++ second.toList = first'.toList ++ second'.toList := by
      rw [← String.toList_append, h, String.toList_append]
    obtain ⟨hone, htwo⟩ := List.append_inj hlists hsame
    exact ⟨String.toList_inj.1 hone, String.toList_inj.1 htwo⟩
  · rintro ⟨rfl, rfl⟩
    rfl

namespace Passage

open Event (fullText)

mutual

theorem length_text_le : ∀ passage : Passage, passage.text.length ≤ (fullText passage.events).length
  | leaf event _ => (congrArg String.length (Event.fullText_singleton event)).ge
  | within construct contents => by
    rw [text, events, Event.fullText_around]
    split
    · exact Nat.zero_le _
    · exact length_textAll_le contents

/-- No text is visible that is not there. -/
theorem length_textAll_le : ∀ passages : List Passage,
    (textAll passages).length ≤ (fullText (eventsAll passages)).length
  | [] => Nat.le_refl _
  | passage :: rest => by
    rw [textAll, eventsAll, Event.fullText_append, String.length_append, String.length_append]
    exact Nat.add_le_add (length_text_le passage) (length_textAll_le rest)

end

mutual

theorem text_eq_fullText_iff : ∀ passage : Passage,
    passage.text = fullText passage.events ↔
      ∀ nested ∈ passage.ofKind .image, fullText nested.events = ""
  | leaf event _ => by
    rw [text, events, Event.fullText_singleton, ofKind]
    exact iff_of_true rfl fun _ hmem ↦ absurd hmem List.not_mem_nil
  | within construct contents => by
    by_cases himage : construct.kind = .image
    · rw [text, if_pos himage, ofKind, if_pos himage, List.forall_mem_singleton]
      exact eq_comm
    · rw [text, if_neg himage, ofKind, if_neg himage, if_neg himage, events,
        Event.fullText_around, textAll_eq_fullText_iff contents]

/-- The visible text is all text exactly if the images have none. -/
theorem textAll_eq_fullText_iff : ∀ passages : List Passage,
    textAll passages = fullText (eventsAll passages) ↔
      ∀ nested ∈ ofKindAll .image passages, fullText nested.events = ""
  | [] => iff_of_true rfl fun _ hmem ↦ absurd hmem List.not_mem_nil
  | passage :: rest => by
    rw [textAll, eventsAll, Event.fullText_append,
      append_eq_append_iff_of_length_le (length_text_le passage) (length_textAll_le rest),
      text_eq_fullText_iff passage, textAll_eq_fullText_iff rest, ofKindAll,
      List.forall_mem_append]

end

end Passage

end Markdown

open Markdown (Image)

/-! ## Images in documents -/

namespace Draft

/-- The value of an attribute of an element. -/
def attribute? (name : String) : Draft → Option String
  | element _ attributes _ => attributes.get? name
  | _ => none

mutual

theorem exists_images_ofKind : ∀ passage : Passage, passage.headsFirst = true →
    ∃ images : List Image, passage.ofKind .image = images.map Image.passage ∧
      ∀ i ∈ images, Passage.headsFirstAll i.contents = true
  | .leaf _ _, _ => ⟨[], rfl, fun _ hmem ↦ absurd hmem List.not_mem_nil⟩
  | .within construct contents, h => by
    have hcontents : Passage.headsFirstAll contents = true := (Bool.and_eq_true_iff.1 h).2
    by_cases himage : construct.kind = .image
    · cases construct with
      | image destination title =>
        exact ⟨[⟨destination, title, contents⟩], rfl, List.forall_mem_singleton.2 hcontents⟩
      | _ => cases himage
    · rw [Passage.ofKind, if_neg himage, if_neg himage]
      exact exists_images_ofKindAll contents hcontents

/-- The outermost images of a document. -/
theorem exists_images_ofKindAll : ∀ passages : List Passage,
    Passage.headsFirstAll passages = true →
      ∃ images : List Image, Passage.ofKindAll .image passages = images.map Image.passage ∧
        ∀ i ∈ images, Passage.headsFirstAll i.contents = true
  | [], _ => ⟨[], rfl, fun _ hmem ↦ absurd hmem List.not_mem_nil⟩
  | passage :: rest, h => by
    rw [Passage.headsFirstAll, Bool.and_eq_true] at h
    obtain ⟨first, hfirst, hheads⟩ := exists_images_ofKind passage h.1
    obtain ⟨others, hothers, hheads'⟩ := exists_images_ofKindAll rest h.2
    refine ⟨first ++ others, ?_, List.forall_mem_append.2 ⟨hheads, hheads'⟩⟩
    rw [Passage.ofKindAll, hfirst, hothers, List.map_append]

end

/-- An image becomes the same whatever is known of columns. -/
theorem ofPassage_image {i : Image} (h : Passage.headsFirstAll i.contents = true) (c : Columns) :
    (ofPassage c i.passage).1 = [i.draft] := by
  have htext : textContents (joined (ofPassages c i.contents).1) =
      Event.visibleText 0 (Passage.eventsAll i.contents) := by
    rw [textContents_joined, textContents_ofPassages c i.contents h, Event.visibleText_eventsAll]
  rw [Image.draft, Image.attributes, ← htext]
  rfl

/-- A sequence of events that is nested well and accepted is the reading of passages, and its images
that stand in no other image are those of the drafts, in the same order. Each image becomes one
element wherever it stands. Its `alt` attribute has the text of the events in it without those
inside nested images, which is all of their text exactly if no nested image has any. -/
theorem images_of_ofEvents {limit : Nat} {events : List Event} {drafts : List Draft}
    (hbalanced : Event.balanced [] events = true) (hdrafts : ofEvents limit events = .ok drafts) :
    (∃ passages, Passage.eventsAll passages = events) ∧
    (∀ passages, Passage.eventsAll passages = events → Passage.headsFirstAll passages = true →
      ∃ images : List Image, Passage.ofKindAll .image passages = images.map Image.passage ∧
        withTagAll "img" drafts = images.map Image.draft) ∧
    ∀ (i : Image) (before after : List Event), Passage.headsFirstAll i.contents = true →
      events = before ++ i.passage.events ++ after →
        (∃ a c, before.foldlM Assembly.step (Assembly.empty limit) = .ok a ∧
          i.passage.events.foldlM Assembly.step a = .ok ((a.push i.draft).withColumns c)) ∧
        i.attributes.get? "alt" = some (Event.visibleText 0 (Passage.eventsAll i.contents)) ∧
        (i.attributes.get? "alt" = some (Event.fullText (Passage.eventsAll i.contents)) ↔
          ∀ nested ∈ Passage.ofKindAll .image i.contents, Event.fullText nested.events = "") := by
  refine ⟨Event.balanced_iff_exists_passages.1 hbalanced, ?_, ?_⟩
  · rintro passages rfl hheads
    obtain ⟨images, himages, hcontents⟩ := exists_images_ofKindAll passages hheads
    refine ⟨images, himages, ?_⟩
    refine withTagAll_of_ofEvents hasOwnTag_image (.inr hheads) himages (fun i hmem c ↦ ?_) hdrafts
    rw [ofPassage_image (hcontents i hmem)]
    rfl
  · rintro i before after hheads rfl
    obtain ⟨a, hbefore, himage⟩ := exists_foldlM_step_of_ofEvents hdrafts
    rw [ofPassage_image hheads] at himage
    have halt : i.attributes.get? "alt" =
        some (Event.visibleText 0 (Passage.eventsAll i.contents)) := Attributes.get?_insert_self ..
    refine ⟨⟨a, _, hbefore, himage⟩, halt, ?_⟩
    rw [halt, Option.some_inj, Event.visibleText_eventsAll, Passage.textAll_eq_fullText_iff]

/-- An image with each kind of text in it, and an image without text. -/
def describedImage : Image :=
  ⟨"a.png", "A",
    [.leaf (.text "a ") (Eq.refl true), .within .emphasis [.leaf (.code "b") (Eq.refl true)],
      .leaf .softBreak (Eq.refl true),
      .within (.link "c.html" "")
        [.leaf (.text "c") (Eq.refl true), .within (.image "d.png" "") []],
      .leaf (.footnoteReference "e") (Eq.refl true)]⟩

/-- The image stands behind a text, and another is in a table. -/
def describedImages : List Passage :=
  [.within .paragraph [.leaf (.text "see ") rfl, describedImage.passage],
    .within (.table [.unspecified])
      [.within .tableHead
        [.within .tableCell [.within (.image "f.png" "") [.leaf (.text "f") rfl]]]]]

theorem images_of_ofEvents_describedImages :
    ∃ drafts, Event.balanced [] (Passage.eventsAll describedImages) = true ∧
      ofEvents 4 (Passage.eventsAll describedImages) = .ok drafts ∧
      Passage.headsFirstAll describedImages = true ∧
      (∃ images : List Image,
        Passage.ofKindAll .image describedImages = images.map Image.passage ∧
          withTagAll "img" drafts = images.map Image.draft) ∧
      (withTagAll "img" drafts).map (attribute? "alt") = [some "a b\nce", some "f"] ∧
      (∃ a c, [Event.start .paragraph, .text "see "].foldlM Assembly.step (Assembly.empty 4) =
          .ok a ∧
        describedImage.passage.events.foldlM Assembly.step a =
          .ok ((a.push describedImage.draft).withColumns c)) ∧
      describedImage.attributes.get? "alt" =
        some (Event.fullText (Passage.eventsAll describedImage.contents)) := by
  have hbalanced : Event.balanced [] (Passage.eventsAll describedImages) = true := by decide
  obtain ⟨drafts, hdrafts⟩ : ∃ drafts,
      ofEvents 4 (Passage.eventsAll describedImages) = .ok drafts := Outcome.exists_eq_ok rfl
  have hheads : Passage.headsFirstAll describedImages = true := by decide
  obtain ⟨-, himages, hwhole⟩ := images_of_ofEvents hbalanced hdrafts
  have hevents : Passage.eventsAll describedImages =
      [.start .paragraph, .text "see "] ++ describedImage.passage.events ++
        .stop .paragraph :: Passage.eventsAll describedImages.tail := rfl
  obtain ⟨hpushed, -, halt⟩ := hwhole describedImage _ _ (by decide) hevents
  refine ⟨drafts, hbalanced, hdrafts, hheads, himages _ rfl hheads, ?_, hpushed, ?_⟩
  · cases hdrafts
    decide +kernel
  · exact halt.2 (by decide)

/-- The `alt` attribute does not have all of the text: that of a nested image is missing. -/
theorem not_attribute_alt_eq_fullText :
    ¬∀ (limit : Nat) (passages : List Passage) (images : List Image) (drafts : List Draft),
      Passage.ofKindAll .image passages = images.map Image.passage →
        ofEvents limit (Passage.eventsAll passages) = .ok drafts →
        (withTagAll "img" drafts).map (attribute? "alt") =
          images.map fun i ↦ some (Event.fullText (Passage.eventsAll i.contents)) := by
  intro h
  have halt := h 3
    [.within .paragraph
      [.within (.image "y" "")
        [.leaf (.text "a ") rfl, .within (.image "x" "") [.leaf (.text "b") rfl],
          .leaf (.text " c") rfl]]]
    [⟨"y", "", [.leaf (.text "a ") rfl, .within (.image "x" "") [.leaf (.text "b") rfl],
      .leaf (.text " c") rfl]⟩]
    _ rfl rfl
  exact absurd halt (by decide +kernel)

end Draft

end NotebookTree
