import Mathlib.Data.List.Forall2
import Mathlib.Data.List.Nodup
import NotebookTree.Proofs.Html.Sourced.Moves
import NotebookTree.Proofs.Outcome

/-!
# Attributes of a compiled fragment

The attributes of an element in a fragment have a qualifier and a name, those of a node have a name
alone. `compileFragment_keeps_attributes` says that a node has one entry for each attribute of its
element, with the value of that, but for the attributes without a qualifier whose name a qualified
attribute of the element has too. An HTML element has no qualified attributes.
-/

namespace NotebookTree

/-! ## Attributes that are set one after the other -/

namespace Attributes

theorem mem_insertEntry {name value : String} {entries : List (String × String)}
    (h : entries.Pairwise (·.1 < ·.1)) (entry : String × String) :
    entry ∈ insertEntry name value entries ↔
      entry = (name, value) ∨ (entry ∈ entries ∧ entry.1 ≠ name) := by
  induction entries with
  | nil => simp [insertEntry]
  | cons head rest ih =>
    obtain ⟨n, v⟩ := head
    obtain ⟨hhead, hrest⟩ := List.pairwise_cons.1 h
    unfold insertEntry
    split
    · next hlt =>
      -- All names are greater than the new one.
      have hne : ∀ other ∈ (n, v) :: rest, other.1 ≠ name :=
        List.forall_mem_cons.2 ⟨(String.ne_of_lt hlt).symm, fun other hother ↦
          (String.ne_of_lt (String.lt_trans hlt (hhead other hother))).symm⟩
      rw [List.mem_cons]
      exact or_congr_right (iff_self_and.2 (hne entry))
    · next hnot =>
      split
      · next hlt =>
        have hne : entry = (n, v) → entry.1 ≠ name := by
          rintro rfl
          exact String.ne_of_lt hlt
        rw [List.mem_cons, List.mem_cons, ih hrest, or_and_right, and_iff_left_of_imp hne]
        exact or_left_comm
      · next hnot' =>
        obtain rfl : n = name := String.le_antisymm hnot hnot'
        have hne : entry ∈ rest → entry.1 ≠ n := fun hmem ↦
          (String.ne_of_lt (hhead entry hmem)).symm
        have hhead' : ¬(entry = (n, v) ∧ entry.1 ≠ n) := by
          rintro ⟨rfl, hne⟩
          exact hne rfl
        rw [List.mem_cons, List.mem_cons, or_and_right, and_iff_left_of_imp hne,
          or_iff_right hhead']

theorem mem_entries_insert (attributes : Attributes) (name value : String)
    (entry : String × String) :
    entry ∈ (attributes.insert name value).entries ↔
      entry = (name, value) ∨ (entry ∈ attributes.entries ∧ entry.1 ≠ name) :=
  mem_insertEntry attributes.sorted entry

/-- Attributes with distinct names that are set have their values, and the others the values that
they had before. -/
theorem mem_entries_foldl_insert {entries : List (String × String)}
    (h : (entries.map Prod.fst).Nodup) (attributes : Attributes) (entry : String × String) :
    entry ∈ (entries.foldl (fun attributes entry ↦ attributes.insert entry.1 entry.2)
        attributes).entries ↔
      entry ∈ entries ∨ (entry ∈ attributes.entries ∧ entry.1 ∉ entries.map Prod.fst) := by
  induction entries generalizing attributes with
  | nil => simp
  | cons first rest ih =>
    obtain ⟨hfirst, hrest⟩ := List.nodup_cons.1 h
    rw [List.foldl_cons, ih hrest, mem_entries_insert, List.map_cons, List.mem_cons, List.mem_cons]
    constructor
    · rintro (hmem | ⟨rfl | ⟨hmem, hne⟩, hnot⟩)
      · exact .inl (.inr hmem)
      · exact .inl (.inl rfl)
      · exact .inr ⟨hmem, not_or.2 ⟨hne, hnot⟩⟩
    · rintro ((rfl | hmem) | ⟨hmem, hnot⟩)
      · exact .inr ⟨.inl rfl, hfirst⟩
      · exact .inl hmem
      · exact .inr ⟨.inr ⟨hmem, (not_or.1 hnot).1⟩, (not_or.1 hnot).2⟩

theorem nodup_entries (attributes : Attributes) : attributes.entries.Nodup := by
  refine attributes.sorted.imp fun hlt heq ↦ ?_
  exact String.ne_of_lt hlt (congrArg Prod.fst heq)

end Attributes

namespace Html

/-! ## Attributes of an element -/

namespace Foreign

theorem lower_attributeName {name : String} (h : Text.lowerAsciiString name = name)
    (vocabulary : Vocabulary) : Text.lowerAsciiString (attributeName vocabulary name) = name := by
  cases vocabulary with
  | html => exact h
  | mathml => exact lower_restore h _
  | svg => exact lower_restore h _

/-- The qualified attributes can be told apart by their names. -/
theorem eq_of_mem_qualified : ∀ first ∈ qualified, ∀ second ∈ qualified,
    first.2.2 = second.2.2 → first = second := by
  decide

/-- An attribute is one of the qualified ones, or it has no qualifier. -/
theorem attributeOf_cases (vocabulary : Vocabulary) (entry : String × String) :
    (∃ qualifier, (attributeOf vocabulary entry).qualifier = some qualifier ∧
      (entry.1, qualifier, (attributeOf vocabulary entry).name) ∈ qualified) ∨
    ((attributeOf vocabulary entry).qualifier = none ∧
      (attributeOf vocabulary entry).name = attributeName vocabulary entry.1) := by
  unfold attributeOf
  split
  · next qualifier name hlookup =>
    obtain ⟨before, after, hqualified, -⟩ := List.lookup_eq_some_iff.1 hlookup
    refine .inl ⟨qualifier, rfl, ?_⟩
    rw [hqualified]
    exact List.mem_append_right _ List.mem_cons_self
  · exact .inr ⟨rfl, rfl⟩

end Foreign

/-- Attributes can be told apart by qualifier and name, and those with a qualifier by their names
alone. -/
structure AreDistinct (attributes : List Attribute) : Prop where
  nodup : (attributes.map fun a ↦ (a.qualifier, a.name)).Nodup
  qualifier_eq : ∀ a ∈ attributes, ∀ other ∈ attributes, a.qualifier.isSome = true →
    other.qualifier.isSome = true → a.name = other.name → a.qualifier = other.qualifier

/-- Two entries of a tag that is read are one attribute only if they have one name. -/
theorem fst_eq_of_attributeIn {vocabulary : Vocabulary} {first second : String × String}
    (hfirst : Text.lowerAsciiString first.1 = first.1)
    (hsecond : Text.lowerAsciiString second.1 = second.1)
    (hqualifier : (attributeIn vocabulary first).qualifier =
      (attributeIn vocabulary second).qualifier)
    (hname : (attributeIn vocabulary first).name = (attributeIn vocabulary second).name) :
    first.1 = second.1 := by
  by_cases hhtml : vocabulary = .html
  · subst hhtml
    exact hname
  rw [attributeIn_of_ne hhtml] at hqualifier hname
  rcases Foreign.attributeOf_cases vocabulary first with ⟨_, hsome, hmem⟩ | ⟨hnone, hplain⟩ <;>
    rcases Foreign.attributeOf_cases vocabulary second with ⟨_, hsome', hmem'⟩ | ⟨hnone', hplain'⟩
  · exact (Prod.mk.inj (Foreign.eq_of_mem_qualified _ hmem _ hmem' hname)).1
  · cases hsome.symm.trans (hqualifier.trans hnone')
  · cases hnone.symm.trans (hqualifier.trans hsome')
  · rw [← Foreign.lower_attributeName hfirst vocabulary, ← hplain, hname, hplain',
      Foreign.lower_attributeName hsecond vocabulary]

theorem ElementName.Carries.areDistinct {name : ElementName} {attributes : List Attribute}
    (h : name.Carries attributes) : AreDistinct attributes := by
  obtain ⟨entries, hread, rfl⟩ := h
  constructor
  · rw [List.map_map]
    refine List.Nodup.map_on (fun first hfirst second hsecond heq ↦ ?_) (.of_map _ hread.nodup)
    have hfst := fst_eq_of_attributeIn (hread.lower first hfirst) (hread.lower second hsecond)
      (Prod.mk.inj heq).1 (Prod.mk.inj heq).2
    exact List.inj_on_of_nodup_map hread.nodup hfirst hsecond hfst
  · intro a ha other hother hqualifier hqualifier' hname
    obtain ⟨first, -, rfl⟩ := List.mem_map.1 ha
    obtain ⟨second, -, rfl⟩ := List.mem_map.1 hother
    by_cases hhtml : name.vocabulary = .html
    · rw [hhtml] at hqualifier
      cases hqualifier
    rw [attributeIn_of_ne hhtml] at *
    rcases Foreign.attributeOf_cases name.vocabulary first with ⟨_, hsome, hmem⟩ | ⟨hnone, -⟩
    · rcases Foreign.attributeOf_cases name.vocabulary second with ⟨_, hsome', hmem'⟩ | ⟨hnone', -⟩
      · have heq := Foreign.eq_of_mem_qualified _ hmem _ hmem' hname
        rw [hsome, hsome']
        exact congrArg some (Prod.mk.inj (Prod.mk.inj heq).2).1
      · rw [hnone'] at hqualifier'
        cases hqualifier'
    · rw [hnone] at hqualifier
      cases hqualifier

theorem ElementName.Carries.qualifier_eq_none {name : ElementName} {attributes : List Attribute}
    (h : name.Carries attributes) (hhtml : name.vocabulary = .html) :
    ∀ a ∈ attributes, a.qualifier = none := by
  obtain ⟨entries, -, rfl⟩ := h
  intro a ha
  obtain ⟨entry, -, rfl⟩ := List.mem_map.1 ha
  rw [hhtml]
  rfl

/-! ## Entries without qualifiers -/

/-- Has no qualified attribute of an element the same name? An attribute with a qualifier is kept in
any case. -/
def isKept (attributes : List Attribute) (a : Attribute) : Bool :=
  a.qualifier.isSome || attributes.all fun other ↦ other.qualifier.isNone || other.name != a.name

variable {attributes : List Attribute}

theorem isKept_of_isSome {a : Attribute} (h : a.qualifier.isSome = true) :
    isKept attributes a = true := by
  rw [isKept, h, Bool.true_or]

/-- An attribute without a qualifier is kept exactly if its name is not that of a qualified one. -/
theorem isKept_iff_of_eq_none {a : Attribute} (h : a.qualifier = none) :
    isKept attributes a = true ↔
      ∀ other ∈ attributes, other.qualifier.isSome = true → other.name ≠ a.name := by
  rw [isKept, h, Option.isSome_none, Bool.false_or, List.all_eq_true]
  refine forall₂_congr fun other _ ↦ ?_
  cases other.qualifier <;> simp

namespace AreDistinct

/-- Some of the attributes can be told apart by name alone if they can be told apart by name where
their qualifiers differ. -/
theorem nodup_map_name (h : AreDistinct attributes) (keep : Attribute → Bool)
    (hkeep : ∀ a ∈ attributes, ∀ other ∈ attributes, keep a = true → keep other = true →
      a.name = other.name → a.qualifier = other.qualifier) :
    (((attributes.filter keep).map fun a ↦ (a.name, a.value)).map Prod.fst).Nodup := by
  rw [List.map_map]
  have hnodup : (attributes.filter keep).Nodup := (List.Nodup.of_map _ h.nodup).filter _
  refine List.Nodup.map_on (fun a ha other hother hname ↦ ?_) hnodup
  obtain ⟨ha, hkeepA⟩ := List.mem_filter.1 ha
  obtain ⟨hother, hkeepOther⟩ := List.mem_filter.1 hother
  exact List.inj_on_of_nodup_map h.nodup ha hother
    (Prod.ext (hkeep a ha other hother hkeepA hkeepOther hname) hname)

theorem qualifier_eq_of_isKept (h : AreDistinct attributes) {a other : Attribute}
    (ha : a ∈ attributes) (hother : other ∈ attributes) (hkeep : isKept attributes a = true)
    (hkeep' : isKept attributes other = true) (hname : a.name = other.name) :
    a.qualifier = other.qualifier := by
  cases hqualifier : a.qualifier with
  | none =>
    cases hqualifier' : other.qualifier with
    | none => rfl
    | some _ =>
      have hne := (isKept_iff_of_eq_none hqualifier).1 hkeep other hother
        (Option.isSome_of_eq_some hqualifier')
      exact absurd hname.symm hne
  | some _ =>
    cases hqualifier' : other.qualifier with
    | none =>
      have hne := (isKept_iff_of_eq_none hqualifier').1 hkeep' a ha
        (Option.isSome_of_eq_some hqualifier)
      exact absurd hname hne
    | some _ =>
      rw [← hqualifier, ← hqualifier']
      exact h.qualifier_eq a ha other hother (Option.isSome_of_eq_some hqualifier)
        (Option.isSome_of_eq_some hqualifier') hname

/-- Attributes without qualifiers are set first, so those with qualifiers take their places. -/
theorem entries_attributesOf_perm (h : AreDistinct attributes) :
    (attributesOf attributes).entries.Perm
      ((attributes.filter (isKept attributes)).map fun a ↦ (a.name, a.value)) := by
  have hplain := h.nodup_map_name (·.qualifier.isNone) fun a _ other _ ha hother _ ↦ by
    rw [Option.isNone_iff_eq_none.1 ha, Option.isNone_iff_eq_none.1 hother]
  have hqualified := h.nodup_map_name (·.qualifier.isSome) h.qualifier_eq
  have hkept := h.nodup_map_name (isKept attributes) fun a ha other hother ↦
    h.qualifier_eq_of_isKept ha hother
  rw [List.perm_ext_iff_of_nodup (Attributes.nodup_entries _) (.of_map _ hkept)]
  intro entry
  rw [attributesOf, Attributes.ofList, List.foldl_append,
    Attributes.mem_entries_foldl_insert hqualified, Attributes.mem_entries_foldl_insert hplain]
  simp only [List.mem_map, List.mem_filter]
  constructor
  · rintro (⟨a, ⟨ha, hsome⟩, rfl⟩ | ⟨⟨a, ⟨ha, hnone⟩, rfl⟩ | ⟨hmem, -⟩, hnot⟩)
    · exact ⟨a, ⟨ha, isKept_of_isSome hsome⟩, rfl⟩
    · refine ⟨a, ⟨ha, ?_⟩, rfl⟩
      rw [isKept_iff_of_eq_none (Option.isNone_iff_eq_none.1 hnone)]
      exact fun other hother hsome hname ↦ hnot ⟨_, ⟨other, ⟨hother, hsome⟩, rfl⟩, hname⟩
    · cases hmem
  · rintro ⟨a, ⟨ha, hkeep⟩, rfl⟩
    cases hqualifier : a.qualifier with
    | some _ => exact .inl ⟨a, ⟨ha, Option.isSome_of_eq_some hqualifier⟩, rfl⟩
    | none =>
      refine .inr ⟨.inl ⟨a, ⟨ha, Option.isNone_iff_eq_none.2 hqualifier⟩, rfl⟩, ?_⟩
      rintro ⟨_, ⟨other, ⟨hother, hsome⟩, rfl⟩, hname⟩
      exact (isKept_iff_of_eq_none hqualifier).1 hkeep other hother hsome hname

end AreDistinct

/-! ## Compiled fragments -/

/-- A node has the attributes of an element: one entry for each attribute that is kept, with the
value of that. All attributes of an HTML element are kept. -/
structure KeepsAttributes (element : ElementName × List Attribute) (lowered : String × Attributes) :
    Prop where
  tag_eq : lowered.1 = element.1.name
  nodup : (element.2.map fun a ↦ (a.qualifier, a.name)).Nodup
  entries_perm : lowered.2.entries.Perm
    ((element.2.filter (isKept element.2)).map fun a ↦ (a.name, a.value))
  isKept_of_html : element.1.vocabulary = .html → ∀ a ∈ element.2, isKept element.2 a = true

/-- An attribute of an element in a compiled fragment has an entry of its own with its value, but
for an attribute of an element of SVG or MathML that has no qualifier and whose name a qualified
attribute of the element has. -/
theorem compileFragment_keeps_attributes (limit : Nat) (html : String) (nodes : List Node)
    (h : compileFragment limit html = .ok nodes) :
    List.Forall₂ KeepsAttributes (HtmlNode.elementsAll (parseFragment html))
      (Node.elementsAll nodes) := by
  rw [elementsAll_of_compileFragment h, List.forall₂_map_right_iff, List.forall₂_same]
  intro found hfound
  have hcarries := forall_mem_parseFragment_carries html found hfound
  have hdistinct := hcarries.areDistinct
  refine ⟨rfl, hdistinct.nodup, hdistinct.entries_attributesOf_perm, fun hhtml a ha ↦ ?_⟩
  have hnone := hcarries.qualifier_eq_none hhtml
  rw [isKept_iff_of_eq_none (hnone a ha)]
  intro other hother hsome
  rw [hnone other hother] at hsome
  cases hsome

/-- A paragraph with a formula that links to it. -/
def linkedFormula : String :=
  "<p id=\"a\"><math definitionurl=\"b\" xlink:href=\"#a\"></math></p>"

theorem compileFragment_keeps_attributes_linkedFormula :
    ∃ nodes, compileFragment 2 linkedFormula = .ok nodes ∧
      List.Forall₂ KeepsAttributes
        [(⟨.html, "p"⟩, [⟨none, "id", "a"⟩]),
          (⟨.mathml, "math"⟩, [⟨none, "definitionURL", "b"⟩, ⟨some "xlink", "href", "#a"⟩])]
        (Node.elementsAll nodes) := by
  have hok : (compileFragment 2 linkedFormula).isOk = true := by decide +kernel
  have hparsed : HtmlNode.elementsAll (parseFragment linkedFormula) =
      [(⟨.html, "p"⟩, [⟨none, "id", "a"⟩]),
        (⟨.mathml, "math"⟩, [⟨none, "definitionURL", "b"⟩, ⟨some "xlink", "href", "#a"⟩])] := by
    decide +kernel
  obtain ⟨nodes, hnodes⟩ := Outcome.exists_eq_ok hok
  exact ⟨nodes, hnodes, hparsed ▸ compileFragment_keeps_attributes 2 linkedFormula nodes hnodes⟩

/-- The target of a link in SVG takes the place of an attribute without a qualifier. -/
theorem not_compileFragment_keeps_attributes :
    ¬∀ (limit : Nat) (html : String) (nodes : List Node),
      compileFragment limit html = .ok nodes →
        List.Forall₂ (fun element lowered ↦
            (lowered.2.entries.map (·.2)).Perm (element.2.map (·.value)))
          (HtmlNode.elementsAll (parseFragment html)) (Node.elementsAll nodes) := by
  intro h
  have hok : (compileFragment 1 "<svg href=\"a\" xlink:href=\"b\"></svg>").isOk = true := by
    decide +kernel
  obtain ⟨nodes, hnodes⟩ := Outcome.exists_eq_ok hok
  have hall := h 1 _ nodes hnodes
  rw [elementsAll_of_compileFragment hnodes, List.forall₂_map_right_iff, List.forall₂_same] at hall
  have hparsed : HtmlNode.elementsAll (parseFragment "<svg href=\"a\" xlink:href=\"b\"></svg>") =
      [(⟨.svg, "svg"⟩, [⟨none, "href", "a"⟩, ⟨some "xlink", "href", "b"⟩])] := by
    decide +kernel
  rw [hparsed, List.forall_mem_singleton] at hall
  exact absurd hall.length_eq (by decide)

end Html

end NotebookTree
