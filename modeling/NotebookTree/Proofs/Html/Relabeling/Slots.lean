import NotebookTree.Proofs.Html.Relabeling.Modes
import NotebookTree.Proofs.Html.StandIn

/-!
# Elements named like stand-ins

Authors may write elements that have the name of the stand-ins. `Relabeling.slots` gives that name
to elements which have another one before, a name that is not known. An end tag of the other name
closes the same element as an end tag of the stand-ins' name does after that, as long as no stand-in
is open. A stand-in is closed right after it is opened: it comes and goes in both builders alike.
-/

namespace NotebookTree.Html

/-- A name that no other element may have: it is not known, and is written in lower case. -/
structure IsFresh (name : String) : Prop where
  not_reserved : isReserved name = false
  ne_standInTag : name ≠ standInTag
  lower_eq : Text.lowerAsciiString name = name

/-- The tags of elements inside which unknown tags may have no effect. -/
def narrowTags : List String := ["select", "col", "colgroup"]

/-- The tags of foreign elements that hold HTML or HTML text. -/
def hostTags : List String :=
  ["mi", "mo", "mn", "ms", "mtext", "foreignobject", "desc", "title"]

/-! ## Spellings -/

theorem Foreign.lower_restore {name : String} (h : Text.lowerAsciiString name = name)
    (names : List String) : Text.lowerAsciiString (restore names name) = name := by
  unfold restore
  cases hfound : names.find? fun known ↦ Text.lowerAsciiString known == name with
  | none => exact h
  | some known =>
    have hknown := List.find?_some hfound
    exact beq_iff_eq.1 hknown

theorem Foreign.lower_tagName {name : String} (h : Text.lowerAsciiString name = name)
    (vocabulary : Vocabulary) : Text.lowerAsciiString (tagName vocabulary name) = name := by
  cases vocabulary with
  | html => exact h
  | mathml => exact h
  | svg => exact lower_restore h svgTags

theorem Foreign.tagName_eq_self {name : String} (h : isReserved name = false)
    (vocabulary : Vocabulary) : tagName vocabulary name = name := by
  cases vocabulary with
  | html => rfl
  | mathml => rfl
  | svg =>
    have hnone : svgTags.find? (fun known ↦ Text.lowerAsciiString known == name) = none := by
      rw [List.find?_eq_none]
      intro known hknown heq
      have hreserved : isReserved (Text.lowerAsciiString known) = true :=
        (show ∀ known ∈ svgTags, isReserved (Text.lowerAsciiString known) = true by
          decide +kernel) known hknown
      rw [beq_iff_eq.1 heq, h] at hreserved
      exact Bool.false_ne_true hreserved
    show (svgTags.find? fun known ↦ Text.lowerAsciiString known == name).getD name = name
    rw [hnone, Option.getD_none]

theorem IsFresh.ne_of_isReserved {new known : String} (h : IsFresh new)
    (hknown : isReserved known = true) : known ≠ new := by
  rintro rfl
  exact Bool.false_ne_true (h.not_reserved.symm.trans hknown)

namespace Relabeling

/-- No spelling of the stand-ins' name, and no other spelling of the new name. -/
def IsApart (new name : String) : Prop :=
  Text.lowerAsciiString name ≠ standInTag ∧ (Text.lowerAsciiString name = new → name = new)

/-- Either foreign elements that hold HTML are left out, or selections and groups of columns. -/
def suits (narrow : Bool) (name : ElementName) : Bool :=
  if narrow then !(Foreign.holdsText name || Foreign.holdsHtml name)
  else name ∉ [(⟨.html, "select"⟩ : ElementName), ⟨.html, "colgroup"⟩]

theorem isApart_of_lower {new name : String} (hlower : Text.lowerAsciiString name = name)
    (hne : name ≠ standInTag) : IsApart new name :=
  ⟨hlower.symm ▸ hne, fun heq ↦ hlower.symm.trans heq⟩

/-- Elements of a fresh name are named like the stand-ins. Stand-ins themselves may be left out. -/
def slots {new : String} (h : IsFresh new) (narrow standIns : Bool) (texts : List String) :
    Relabeling where
  rename name := if name = new then standInTag else name
  title name := if name = new then standInTag else name
  attributes attributes := attributes
  Admits name := (standIns = false → IsApart new name.name) ∧ suits narrow name = true
  texts
  narrowless := !narrow
  rename_eq_iff := by
    intro name known hknown
    split
    · next hname =>
      refine ⟨fun heq ↦ ?_, fun heq ↦ absurd (heq.symm.trans hname) (h.ne_of_isReserved hknown)⟩
      rw [← heq] at hknown
      exact absurd hknown (by decide)
    · exact Iff.rfl
  title_eq_self hknown := if_neg (h.ne_of_isReserved hknown)
  attributes_nil := rfl
  admits_impliedTag := by
    intro tag hmem
    obtain ⟨hlower, hne⟩ := (show ∀ tag ∈ ["p", "tbody", "tr"],
      Text.lowerAsciiString tag = tag ∧ tag ≠ standInTag by decide) tag hmem
    refine ⟨fun _ ↦ isApart_of_lower hlower hne, ?_⟩
    exact (show ∀ narrow, ∀ tag ∈ ["p", "tbody", "tr"], suits narrow ⟨.html, tag⟩ = true by
      decide) narrow tag hmem
  admits_select hadmits := by
    cases narrow with
    | true => rfl
    | false => exact absurd hadmits.2 (by decide)
  admits_colgroup := by
    cases narrow with
    | true =>
      exact iff_of_true ⟨fun _ ↦ isApart_of_lower (by decide) (by decide), by decide⟩ rfl
    | false => exact iff_of_false (fun hadmits ↦ absurd hadmits.2 (by decide)) nofun

variable {new : String} {h : IsFresh new} {narrow standIns : Bool} {texts : List String}

theorem slots_rename_new : (slots h narrow standIns texts).rename new = standInTag :=
  if_pos rfl

theorem slots_rename_ne {name : String} (hname : name ≠ new) :
    (slots h narrow standIns texts).rename name = name :=
  if_neg hname

theorem suits_tagName {name : String} (hlower : Text.lowerAsciiString name = name)
    (hname : name ∉ if narrow then hostTags else narrowTags) (vocabulary : Vocabulary) :
    suits narrow ⟨vocabulary, Foreign.tagName vocabulary name⟩ = true := by
  cases narrow with
  | false =>
    rw [suits, if_neg Bool.false_ne_true, decide_eq_true_eq]
    intro hmem
    simp only [List.mem_cons, List.not_mem_nil, or_false, ElementName.mk.injEq] at hmem
    refine hname ?_
    rcases hmem with ⟨rfl, hmem⟩ | ⟨rfl, hmem⟩
    · rw [show name = "select" from hmem]
      decide
    · rw [show name = "colgroup" from hmem]
      decide
  | true =>
    have hmem {known : String} (hknown : Foreign.tagName vocabulary name = known)
        (hhost : Text.lowerAsciiString known ∈ hostTags) : False := by
      rw [← hknown, Foreign.lower_tagName hlower] at hhost
      exact hname hhost
    rw [suits, if_pos rfl, Bool.not_eq_true', Bool.or_eq_false_iff]
    constructor
    · rw [← Bool.not_eq_true]
      intro htext
      simp only [Foreign.holdsText, Bool.and_eq_true, decide_eq_true_eq, List.mem_cons,
        List.not_mem_nil, or_false] at htext
      rcases htext.2 with heq | heq | heq | heq | heq <;> exact hmem heq (by decide)
    · rw [← Bool.not_eq_true]
      intro hhtml
      simp only [Foreign.holdsHtml, Bool.and_eq_true, decide_eq_true_eq, List.mem_cons,
        List.not_mem_nil, or_false] at hhtml
      rcases hhtml.2 with heq | heq | heq <;> exact hmem heq (by decide)

/-- An opening tag may be read, unless it is one of those that are left out. -/
theorem slots_acceptsTag {tag : Tag} (hlower : Text.lowerAsciiString tag.name = tag.name)
    (hname : tag.name ∉ if narrow then hostTags else narrowTags)
    (htexts : tag.name ∈ textTags → tag.name ∈ texts)
    (hstandIns : standIns = false → tag.name ≠ standInTag) :
    (slots h narrow standIns texts).AcceptsTag tag where
  rename_tagName vocabulary := by
    by_cases hnew : tag.name = new
    · have htag : isReserved tag.name = false := hnew ▸ h.not_reserved
      rw [Foreign.tagName_eq_self htag, hnew, slots_rename_new, Foreign.tagName_standInTag]
    · have hne : Foreign.tagName vocabulary tag.name ≠ new := fun heq ↦ by
        have hlower' := Foreign.lower_tagName hlower vocabulary
        rw [heq, h.lower_eq] at hlower'
        exact hnew hlower'.symm
      rw [slots_rename_ne hne, slots_rename_ne hnew]
  title_tagName _ := rfl
  admits_tagName vocabulary := by
    refine ⟨fun hnone ↦ ⟨?_, fun heq ↦ ?_⟩, suits_tagName hlower hname vocabulary⟩
    · rw [Foreign.lower_tagName hlower]
      exact hstandIns hnone
    · rw [Foreign.lower_tagName hlower] at heq
      rw [heq]
      exact Foreign.tagName_eq_self h.not_reserved vocabulary
  htmlAttributes_eq := rfl
  foreignAttributes_eq _ := rfl
  mem_texts := htexts
  ne_col hnarrow heq := by
    cases narrow with
    | true => exact Bool.false_ne_true hnarrow
    | false => exact hname (heq ▸ by decide)

/-- An end tag may be read while no stand-in is open, unless it is that of a stand-in. -/
theorem slots_acceptsEnd {name : String} (hname : name ≠ standInTag) :
    (slots h narrow false texts).AcceptsEnd name := by
  intro other hadmits
  obtain ⟨hstandIn, hspelling⟩ := hadmits.1 rfl
  have hlower : Text.lowerAsciiString standInTag = standInTag := by decide
  have hother : other.name ≠ standInTag := fun heq ↦ hstandIn (heq ▸ hlower)
  by_cases hotherNew : other.name = new
  · rw [hotherNew, slots_rename_new, hlower, h.lower_eq]
    by_cases hnew : name = new
    · rw [hnew, slots_rename_new]
      exact ⟨iff_of_true rfl rfl, iff_of_true rfl rfl⟩
    · rw [slots_rename_ne hnew]
      exact ⟨iff_of_false hname.symm (Ne.symm hnew), iff_of_false hname.symm (Ne.symm hnew)⟩
  · rw [slots_rename_ne hotherNew]
    by_cases hnew : name = new
    · rw [hnew, slots_rename_new]
      exact ⟨iff_of_false hother hotherNew, iff_of_false hstandIn (mt hspelling hotherNew)⟩
    · rw [slots_rename_ne hnew]
      exact ⟨Iff.rfl, Iff.rfl⟩

/-- Formatting elements are never left out. -/
theorem slots_keeps_iff (standIns' : Bool) (texts' : List String) (entry : FormattingEntry) :
    (slots h narrow standIns texts).Keeps entry ↔
      (slots h narrow standIns' texts').Keeps entry := by
  cases entry with
  | marker => exact Iff.rfl
  | element id tag =>
    have haccepts (hformatting : tag.name ∈ formattingTags) (standIns : Bool)
        (texts : List String) : (slots h narrow standIns texts).AcceptsTag tag := by
      obtain ⟨hlower, hnarrow, htext, hne⟩ := (show ∀ name ∈ formattingTags,
        Text.lowerAsciiString name = name ∧
          (∀ narrow : Bool, name ∉ if narrow then hostTags else narrowTags) ∧
            name ∉ textTags ∧ name ≠ standInTag by decide) tag.name hformatting
      exact slots_acceptsTag hlower (hnarrow narrow) (fun hmem ↦ absurd hmem htext) fun _ ↦ hne
    exact ⟨fun hkeeps ↦ ⟨hkeeps.1, haccepts hkeeps.1 _ _⟩,
      fun hkeeps ↦ ⟨hkeeps.1, haccepts hkeeps.1 _ _⟩⟩

theorem Orderly.mono {r : Relabeling} {plan : Plan} (h : r.Orderly plan) (r' : Relabeling)
    (hnarrow : r'.narrowless = r.narrowless) (htexts : r.texts ⊆ r'.texts) : r'.Orderly plan := by
  have hallows {mode : Mode} (hmode : r.Allows mode) : r'.Allows mode :=
    ⟨hmode.1, hmode.2.1, fun hnarrow' ↦ hmode.2.2 (hnarrow.symm.trans hnarrow')⟩
  have hcontent {plan : Plan} (h : r.Content plan) : r'.Content plan :=
    ⟨hallows h.allows_mode, fun mode hmem ↦ hallows (h.allows_template mode hmem),
      h.reads.imp_right fun hplain ↦ ⟨hplain.1, htexts hplain.2⟩⟩
  cases h with
  | content h => exact .content (hcontent h)
  | tableText hmode houter h => exact .tableText hmode houter (hcontent h)
  | text hmode hname hreading h => exact .text hmode (htexts hname) hreading (hcontent h)

theorem Orderly.mode_ne_text {r : Relabeling} (htexts : r.texts = []) {plan : Plan}
    (h : r.Orderly plan) : plan.mode ≠ .text := by
  cases h with
  | content h => exact h.allows_mode.1
  | tableText hmode _ _ =>
    rw [hmode]
    decide
  | text _ hname _ _ =>
    rw [htexts] at hname
    exact absurd hname List.not_mem_nil

end Relabeling

namespace Builder

open Relabeling

variable {new : String} {h : IsFresh new} {narrow standIns : Bool} {texts : List String}
  {b b' : Builder}

theorem relabel_slots (standIns' : Bool) (texts' : List String) :
    b.relabel (slots h narrow standIns texts) = b.relabel (slots h narrow standIns' texts') := by
  have htree : b.tree.relabel (slots h narrow standIns texts) =
      b.tree.relabel (slots h narrow standIns' texts') := Dom.relabel_congr (by rfl) (by rfl) b.tree
  rw [relabel, htree]
  rfl

/-- Which elements are left out makes no difference, if the open ones are not. -/
theorem Follows.slots_of {plans : Plan → Prop}
    (hb : Follows (slots h narrow standIns texts) plans b b') (standIns' : Bool)
    (texts' : List String)
    (hadmits : ∀ element ∈ b.stack, (slots h narrow standIns' texts').Admits element.name) :
    Follows (slots h narrow standIns' texts') plans b b' where
  eq_relabel := by rw [hb.eq_relabel, relabel_slots]
  admits := hadmits
  keeps := fun entry hmem ↦ (slots_keeps_iff standIns' texts' entry).1 (hb.keeps entry hmem)
  plan := hb.plan

/-! ## The opening tag of a stand-in -/

/-- The modes in which unknown tags are read as in a body. -/
def openModes : List Mode := [.body, .caption, .cell, .table, .tableBody, .row]

/-- What the opening tag of a stand-in leads to. -/
inductive Slotted {new : String} (h : IsFresh new) (narrow : Bool) (b : Builder) : Prop where
  /-- The stand-in is open. -/
  | opened {id : Nat} {vocabulary : Vocabulary} {below : List OpenElement}
    (hstack : b.stack = ⟨id, ⟨vocabulary, standInTag⟩⟩ :: below)
    (hbelow : ∀ element ∈ below, (slots h narrow false []).Admits element.name)
    (hmode : vocabulary = .html → b.mode ∈ openModes) (hne : vocabulary ≠ .html → below ≠ [])
  /-- The tag has no effect, and neither will the end tag. -/
  | dropped (hstack : ∀ element ∈ b.stack, (slots h narrow false []).Admits element.name)
    (hcurrent : b.current.name.vocabulary = .html) (hmode : b.mode ∈ narrowModes)
    (hgroup : b.mode = .columnGroup → b.currentIs "colgroup" = false)

/-- An element is added to the open elements; the rest is the tree. -/
theorem exists_insertElement_eq_tree (b : Builder) (name : ElementName)
    (attributes : List Attribute) :
    ∃ tree, b.insertElement true name attributes =
      { b with tree, nextId := b.nextId + 2, stack := ⟨b.nextId, name⟩ :: b.stack } := by
  obtain ⟨tree, htree⟩ := exists_insertAt_eq_tree b (b.placeIn b.current)
    (.element b.nextId name attributes
      (if name = ⟨.html, "template"⟩ then [Dom.contents (contentsId b.nextId) []] else []))
  refine ⟨tree, ?_⟩
  rw [insertElement, htree]
  rfl

theorem slotted_inBody
    (hb : Follows (slots h narrow false []) (fun plan ↦ plan.mode ∈ openModes) b b')
    (index : Nat) : Slotted h narrow (b.inBody (.startTag (standInOpening index))) := by
  have hreopened := hb.reopenFormatting
  have hstart : b.inBody (.startTag (standInOpening index)) =
      b.reopenFormatting.insertElement true ⟨.html, standInTag⟩
        (htmlAttributes (standInOpening index)) := rfl
  obtain ⟨tree, htree⟩ := exists_insertElement_eq_tree b.reopenFormatting ⟨.html, standInTag⟩
    (htmlAttributes (standInOpening index))
  rw [hstart, htree]
  exact .opened rfl hreopened.admits (fun _ ↦ hreopened.plan) fun hne ↦ absurd rfl hne

theorem slotted_inBodyFostering
    (hb : Follows (slots h narrow false []) (fun plan ↦ plan.mode ∈ openModes) b b')
    (index : Nat) : Slotted h narrow (b.inBodyFostering (.startTag (standInOpening index))) := by
  cases slotted_inBody (hb.withFostering true) index with
  | opened hstack hbelow hmode hne => exact .opened hstack hbelow hmode hne
  | dropped hstack hcurrent hmode hgroup => exact .dropped hstack hcurrent hmode hgroup

/-- In foreign content, a stand-in is a foreign element. -/
theorem slotted_settle_of_isForeign
    (hadmits : ∀ element ∈ b.stack, (slots h narrow false []).Admits element.name) {index : Nat}
    (hforeign : b.isForeign (.startTag (standInOpening index)) = true) (limit : Nat) :
    Slotted h narrow (settle (limit + 1) b (.startTag (standInOpening index))) := by
  have hends : Foreign.endsForeign (standInOpening index) = false := by
    simp [Foreign.endsForeign, standInOpening, Foreign.endingTags, standInTag]
  have hstart : b.inForeign (.startTag (standInOpening index)) =
      .done (b.openForeign b.current.name.vocabulary (standInOpening index)) := by
    rw [inForeign, hends]
    rfl
  obtain ⟨tree, htree⟩ := exists_insertElement_eq_tree b
    ⟨b.current.name.vocabulary, Foreign.tagName b.current.name.vocabulary standInTag⟩
    ((standInOpening index).attributes.map (Foreign.attributeOf b.current.name.vocabulary))
  have hopen : b.openForeign b.current.name.vocabulary (standInOpening index) = _ := htree
  rw [Foreign.tagName_standInTag] at hopen
  have hvocabulary : b.current.name.vocabulary ≠ .html := by
    intro heq
    simp [isForeign, heq] at hforeign
  rw [settle, if_pos hforeign, hstart]
  dsimp only
  rw [hopen]
  refine .opened rfl hadmits (fun heq ↦ absurd heq hvocabulary) fun _ hnil ↦ hvocabulary ?_
  rw [current, hnil]
  rfl

theorem slotted_settle_of_mem
    (hb : Follows (slots h narrow false []) (fun plan ↦ plan.mode ∈ openModes) b b')
    (index limit : Nat) :
    Slotted h narrow (settle (limit + 1) b (.startTag (standInOpening index))) := by
  by_cases hforeign : b.isForeign (.startTag (standInOpening index)) = true
  · exact slotted_settle_of_isForeign hb.admits hforeign limit
  have hbody := slotted_inBody hb index
  have hfostering := slotted_inBodyFostering hb index
  have hmode : b.mode ∈ openModes := hb.plan
  rw [settle, if_neg hforeign, inMode]
  simp only [openModes, List.mem_cons, List.not_mem_nil, or_false] at hmode
  rcases hmode with hmode | hmode | hmode | hmode | hmode | hmode <;> rw [hmode]
  · exact hbody
  · exact hbody
  · exact hbody
  · exact hfostering
  · exact hfostering
  · exact hfostering

/-- Where the tag has no effect, an HTML element is open inside which it has none. -/
theorem slotted_of_narrow (hb : Tracks (slots h narrow false []) b b') {index : Nat}
    (hforeign : ¬b.isForeign (.startTag (standInOpening index)) = true)
    (hmode : b.mode ∈ narrowModes)
    (hgroup : b.mode = .columnGroup → b.currentIs "colgroup" = false) : Slotted h narrow b := by
  refine .dropped hb.admits ?_ hmode hgroup
  -- Selections and groups of columns are not left out, so foreign elements that hold HTML are.
  have hallows : (slots h narrow false []).Allows b.mode := by
    cases hb.plan with
    | content hcontent => exact hcontent.allows_mode
    | tableText htable _ _ =>
      rw [show b.mode = .tableText from htable] at hmode
      exact absurd hmode (by decide)
    | text _ hname _ _ => exact absurd hname List.not_mem_nil
  have hnarrow : narrow = true := by
    rw [← Bool.not_eq_false]
    exact fun heq ↦ hallows.2.2 (by rw [heq]; rfl) hmode
  subst hnarrow
  by_contra hvocabulary
  have hcurrent : b.current ∈ b.stack := by
    cases hstack : b.stack with
    | nil =>
      rw [current, hstack] at hvocabulary
      exact absurd rfl hvocabulary
    | cons element below =>
      rw [current, hstack]
      exact List.mem_cons_self
  have hsuits := (hb.admits _ hcurrent).2
  rw [suits, if_pos rfl, Bool.not_eq_true', Bool.or_eq_false_iff] at hsuits
  exact hforeign (by
    simp [isForeign, hvocabulary, hsuits.1, hsuits.2, standInOpening, standInTag])

/-- The opening tag of a stand-in opens it, or has no effect. -/
theorem slotted_settle (hb : Tracks (slots h narrow false []) b b') (index limit : Nat) :
    Slotted h narrow (settle (limit + 2) b (.startTag (standInOpening index))) := by
  by_cases hforeign : b.isForeign (.startTag (standInOpening index)) = true
  · exact slotted_settle_of_isForeign hb.admits hforeign (limit + 1)
  have hopen {m : Mode} (hm : m ∈ openModes) (hmode : b.mode = m) :
      Slotted h narrow (settle (limit + 2) b (.startTag (standInOpening index))) :=
    slotted_settle_of_mem (hb.toFollows.weaken (show b.mode ∈ openModes from hmode ▸ hm)) index
      (limit + 1)
  cases hmode : b.mode with
  | body => exact hopen (by decide) hmode
  | caption => exact hopen (by decide) hmode
  | cell => exact hopen (by decide) hmode
  | table => exact hopen (by decide) hmode
  | tableBody => exact hopen (by decide) hmode
  | row => exact hopen (by decide) hmode
  | text => exact absurd hmode (hb.plan.mode_ne_text rfl)
  | tableText =>
    have hplace := hb.placeTableText hmode
    rw [settle, if_neg hforeign, inMode, hmode]
    refine slotted_settle_of_mem (hplace.weaken ?_) index limit
    exact (show ∀ m ∈ [Mode.table, .tableBody, .row], m ∈ openModes by decide) _ hplace.plan.2
  | template =>
    rw [settle, if_neg hforeign, inMode, hmode]
    refine slotted_settle_of_mem (hb.change (fun b ↦ { b with
      mode := .body, templateModes := .body :: b.templateModes.tail }) (fun _ ↦ rfl)
        (fun _ ↦ List.Sublist.refl _) (fun _ ↦ List.Sublist.refl _) ?_) index limit
    exact (show Mode.body ∈ openModes by decide)
  | columnGroup =>
    have hstep : b.inMode (.startTag (standInOpening index)) =
        if b.currentIs "colgroup" then
          .again (b.pop.withMode .table) (.startTag (standInOpening index))
        else .done b := by
      rw [inMode, hmode]
      rfl
    rw [settle, if_neg hforeign, hstep]
    by_cases hgroup : b.currentIs "colgroup" = true
    · rw [if_pos hgroup]
      exact slotted_settle_of_mem (hb.pop.change (Builder.withMode · .table) (fun _ ↦ rfl)
        (fun _ ↦ List.Sublist.refl _) (fun _ ↦ List.Sublist.refl _)
        (show Mode.table ∈ openModes by decide)) index limit
    · rw [if_neg hgroup]
      exact slotted_of_narrow hb hforeign (hmode ▸ by decide)
        fun _ ↦ Bool.eq_false_iff.2 hgroup
  | select =>
    have hstep : b.inMode (.startTag (standInOpening index)) = .done b := by
      rw [inMode, hmode]
      rfl
    rw [settle, if_neg hforeign, hstep]
    exact slotted_of_narrow hb hforeign (hmode ▸ by decide)
      fun heq ↦ absurd (hmode.symm.trans heq) (by decide)
  | selectInTable =>
    have hstep : b.inMode (.startTag (standInOpening index)) = .done b := by
      rw [inMode, hmode]
      rfl
    rw [settle, if_neg hforeign, hstep]
    exact slotted_of_narrow hb hforeign (hmode ▸ by decide)
      fun heq ↦ absurd (hmode.symm.trans heq) (by decide)

theorem slotted_accept (hb : Tracks (slots h narrow false []) b b') (index : Nat) :
    Slotted h narrow (b.accept (.startTag (standInOpening index))) :=
  slotted_settle ⟨hb.withDropLineFeed false, hb.html_of_text⟩ index (8 * b.stack.length + 14)

/-! ## The end tag of a stand-in -/

/-- A token that is dealt with at once is settled in one step. -/
theorem settle_of_done {token : Token} {next : Builder} (limit : Nat)
    (hstep : (if b.isForeign token then b.inForeign token else b.inMode token) = .done next) :
    settle (limit + 1) b token = next := by
  rw [settle, hstep]

theorem inMode_endTag_of_body (hmode : b.mode ∈ [Mode.body, .caption, .cell]) :
    b.inMode (.endTag standInTag) = .done (b.closeOrdinary standInTag) := by
  simp only [List.mem_cons, List.not_mem_nil, or_false] at hmode
  rcases hmode with hmode | hmode | hmode <;> rw [inMode, hmode] <;> rfl

theorem inMode_endTag_of_table (hmode : b.mode ∈ [Mode.table, .tableBody, .row]) :
    b.inMode (.endTag standInTag) = .done (b.inBodyFostering (.endTag standInTag)) := by
  simp only [List.mem_cons, List.not_mem_nil, or_false] at hmode
  rcases hmode with hmode | hmode | hmode <;> rw [inMode, hmode] <;> rfl

/-- The end tag closes a stand-in that is open, and does nothing else. -/
theorem accept_endTag_of_opened {id : Nat} {vocabulary : Vocabulary} {below : List OpenElement}
    (hstack : b.stack = ⟨id, ⟨vocabulary, standInTag⟩⟩ :: below)
    (hmode : vocabulary = .html → b.mode ∈ openModes) (hne : vocabulary ≠ .html → below ≠ []) :
    b.accept (.endTag standInTag) =
      { b with
        stack := below, dropLineFeed := false
        fostering := if vocabulary = .html ∧ b.mode ∈ [Mode.table, .tableBody, .row] then false
          else b.fostering } := by
  refine settle_of_done (8 * b.stack.length + 15) ?_
  have hcurrent : current { b with dropLineFeed := false } = ⟨id, ⟨vocabulary, standInTag⟩⟩ := by
    rw [current, hstack]
    rfl
  by_cases hvocabulary : vocabulary = .html
  · subst hvocabulary
    have hforeign : ¬isForeign { b with dropLineFeed := false } (.endTag standInTag) = true := by
      simp [isForeign, hcurrent]
    rw [if_neg hforeign]
    by_cases htable : b.mode ∈ [Mode.table, .tableBody, .row]
    · have hfostered : inBodyFostering { b with dropLineFeed := false } (.endTag standInTag) =
          { b with dropLineFeed := false, stack := below, fostering := false } :=
        congrArg (fun b : Builder ↦ { b with fostering := false }) (closeOrdinary_standInTag
          (b := { b with dropLineFeed := false, fostering := true }) hstack)
      rw [if_pos ⟨rfl, htable⟩, ← hfostered]
      exact inMode_endTag_of_table htable
    · have hclosed : closeOrdinary { b with dropLineFeed := false } standInTag =
          { b with dropLineFeed := false, stack := below } := closeOrdinary_standInTag hstack
      have hbody : b.mode ∈ [Mode.body, .caption, .cell] := by
        have hopen := hmode rfl
        simp only [openModes, List.mem_cons, List.not_mem_nil, or_false] at hopen htable ⊢
        grind
      rw [if_neg fun hand ↦ htable hand.2, ← hclosed]
      exact inMode_endTag_of_body hbody
  · have hforeign : isForeign { b with dropLineFeed := false } (.endTag standInTag) = true := by
      simp [isForeign, hcurrent, hvocabulary]
    rw [if_pos hforeign, if_neg fun hor ↦ hvocabulary hor.1]
    exact foreignEnd_standInTag hstack (hne hvocabulary)

/-- Where the opening tag had no effect, the end tag has none. -/
theorem accept_endTag_of_dropped (hcurrent : b.current.name.vocabulary = .html)
    (hmode : b.mode ∈ narrowModes)
    (hgroup : b.mode = .columnGroup → b.currentIs "colgroup" = false) :
    b.accept (.endTag standInTag) = { b with dropLineFeed := false } := by
  refine settle_of_done (8 * b.stack.length + 15) ?_
  have hcurrent' : (current { b with dropLineFeed := false }).name.vocabulary = .html := hcurrent
  have hforeign : ¬isForeign { b with dropLineFeed := false } (.endTag standInTag) = true := by
    simp [isForeign, hcurrent']
  rw [if_neg hforeign, inMode]
  simp only [narrowModes, List.mem_cons, List.not_mem_nil, or_false] at hmode
  rcases hmode with hmode | hmode | hmode
  · rw [hmode]
    rfl
  · rw [hmode]
    rfl
  · have hnot : ¬currentIs { b with dropLineFeed := false } "colgroup" = true :=
      Bool.eq_false_iff.1 (hgroup hmode)
    rw [hmode]
    exact if_neg hnot

/-- A stand-in is opened in both builders alike. -/
theorem Tracks.accept_standInOpening (hb : Tracks (slots h narrow false []) b b') (index : Nat) :
    Tracks (slots h narrow true []) (b.accept (.startTag (standInOpening index)))
      (b'.accept (.startTag (standInOpening index))) := by
  have hopening : (slots h narrow true []).AcceptsTag (standInOpening index) :=
    slots_acceptsTag (show Text.lowerAsciiString standInTag = standInTag by decide)
      (by cases narrow <;> exact (show standInTag ∉ _ by decide))
      (fun hmem ↦ absurd hmem (show standInTag ∉ textTags by decide))
      fun heq ↦ absurd heq (by decide)
  have htoken : (slots h narrow true []).token (.startTag (standInOpening index)) =
      .startTag (standInOpening index) := by
    rw [Relabeling.token, Relabeling.tag]
    exact congrArg (fun name ↦ Token.startTag { standInOpening index with name })
      (slots_rename_ne h.ne_standInTag.symm)
  have hplan := hb.plan.mono (slots h narrow true []) rfl fun _ hmem ↦ hmem
  have hweak : Tracks (slots h narrow true []) b b' :=
    ⟨(hb.slots_of true [] fun element hmem ↦ ⟨fun heq ↦ absurd heq (by decide),
      (hb.admits element hmem).2⟩).weaken hplan, hb.html_of_text⟩
  have haccept := hweak.accept
    (show (slots h narrow true []).Accepts (.startTag (standInOpening index)) from hopening)
  rwa [htoken] at haccept

/-- A stand-in is opened and closed in both builders alike. -/
theorem Tracks.accept_standIn (hb : Tracks (slots h narrow false []) b b') (index : Nat) :
    Tracks (slots h narrow false [])
      ((b.accept (.startTag (standInOpening index))).accept (.endTag standInTag))
      ((b'.accept (.startTag (standInOpening index))).accept (.endTag standInTag)) := by
  have hstart := hb.accept_standInOpening index
  have hslotted := slotted_accept hb index
  generalize b.accept (.startTag (standInOpening index)) = c at hstart hslotted ⊢
  generalize b'.accept (.startTag (standInOpening index)) = c' at hstart ⊢
  have hplan' := hstart.plan.mono (slots h narrow false []) rfl fun _ hmem ↦ hmem
  have htext : c.mode ≠ .text := hplan'.mode_ne_text rfl
  have hcurrent : c'.current.name.vocabulary = c.current.name.vocabulary :=
    hstart.toFollows.vocabulary_current
  cases hslotted with
  | @opened id vocabulary below hstack hbelow hmode hne =>
    have hself : (slots h narrow true []).openElement ⟨id, ⟨vocabulary, standInTag⟩⟩ =
        ⟨id, ⟨vocabulary, standInTag⟩⟩ :=
      congrArg (fun name ↦ OpenElement.mk id ⟨vocabulary, name⟩)
        (slots_rename_ne h.ne_standInTag.symm)
    have hstack' := hstart.stack_eq
    rw [hstack, List.map_cons, hself] at hstack'
    have hfostering : (if vocabulary = .html ∧ c'.mode ∈ [Mode.table, .tableBody, .row] then false
          else c'.fostering) =
        if vocabulary = .html ∧ c.mode ∈ [Mode.table, .tableBody, .row] then false
          else c.fostering := by
      rw [hstart.eq_relabel]
      rfl
    have hbelow' : ∀ element ∈ below, (slots h narrow true []).Admits element.name :=
      fun element hmem ↦ ⟨fun heq ↦ absurd heq (by decide), (hbelow element hmem).2⟩
    rw [accept_endTag_of_opened hstack hmode hne, accept_endTag_of_opened hstack'
      (hstart.mode_eq ▸ hmode) fun hvocabulary ↦ mt List.map_eq_nil_iff.1 (hne hvocabulary),
      hfostering]
    have hclosed := ((hstart.withStack hbelow').withDropLineFeed false).withFostering
      (if vocabulary = .html ∧ c.mode ∈ [Mode.table, .tableBody, .row] then false
        else c.fostering)
    exact ⟨(hclosed.slots_of false [] hbelow).weaken hplan', fun heq ↦ absurd heq htext⟩
  | dropped hstack hhtml hmode hgroup =>
    have hgroup' : c'.mode = .columnGroup → c'.currentIs "colgroup" = false := by
      rw [hstart.mode_eq, hstart.isHtml_current (by decide)]
      exact hgroup
    rw [accept_endTag_of_dropped hhtml hmode hgroup, accept_endTag_of_dropped
      (hcurrent.trans hhtml) (hstart.mode_eq ▸ hmode) hgroup']
    exact ⟨((hstart.slots_of false [] hstack).weaken hplan').withDropLineFeed false,
      fun heq ↦ absurd heq htext⟩

end Builder

end NotebookTree.Html
