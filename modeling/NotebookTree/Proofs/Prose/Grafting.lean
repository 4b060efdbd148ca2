import Mathlib.Data.Option.Basic
import Mathlib.Tactic.ByContra
import NotebookTree.Prose.Lowering

/-!
# Putting pieces in place of stand-ins

`Draft.fillAll` goes through a forest with a table of the pieces that are left. The relation
`Grafted` says what it does without such a table: in document order, the first stand-in of each
piece is replaced by the piece, whose own contents are not searched, and everything else stays as
it is. The indices of the pieces that are in place are kept, the latest first.

`Grafted.fill_eq` and `exists_grafted` show that the relation holds exactly of what the pass gives.
-/

namespace NotebookTree.Draft

/-- The index of the piece for which an element of a fragment stands in. -/
def standInIndex? (tag : String) (attributes : Attributes) : Option Nat :=
  if tag == standInTag then attributes.get? standInAttribute >>= index? else none

mutual

/-- Going through a node, with the pieces at the first indices in place, replaces stand-ins by
pieces and leads to the second indices. -/
inductive Grafted (pieces : List Node) : List Nat → Node → Node → List Nat → Prop where
  /-- The first stand-in of a piece is replaced as a whole. -/
  | place {placed : List Nat} {tag : String} {attributes : Attributes} {children : List Node}
      {index : Nat} {piece : Node} :
      standInIndex? tag attributes = some index → index ∉ placed →
      pieces[index]? = some piece →
      Grafted pieces placed (.element tag attributes children) piece (index :: placed)
  /-- An element that stands in for no piece that is left keeps its tag and its attributes. -/
  | element {placed placed' : List Nat} {tag : String} {attributes : Attributes}
      {children children' : List Node} :
      (∀ index, standInIndex? tag attributes = some index → index < pieces.length →
        index ∈ placed) →
      GraftedAll pieces placed children children' placed' →
      Grafted pieces placed (.element tag attributes children)
        (.element tag attributes children') placed'
  | root {placed placed' : List Nat} {children children' : List Node} :
      GraftedAll pieces placed children children' placed' →
      Grafted pieces placed (.root children) (.root children') placed'
  | text {placed : List Nat} {value : String} :
      Grafted pieces placed (.text value) (.text value) placed

/-- Going through the nodes of a list one after the other. -/
inductive GraftedAll (pieces : List Node) : List Nat → List Node → List Node → List Nat → Prop where
  | nil {placed : List Nat} : GraftedAll pieces placed [] [] placed
  | cons {placed placed' placed'' : List Nat} {node node' : Node} {rest rest' : List Node} :
      Grafted pieces placed node node' placed' →
      GraftedAll pieces placed' rest rest' placed'' →
      GraftedAll pieces placed (node :: rest) (node' :: rest') placed''

end

/-! ## The table of the pieces that are left -/

/-- The table in which the pieces at some indices are taken out. -/
def slotsLeft (pieces : List Node) (placed : List Nat) : List (Option Node) :=
  pieces.mapIdx fun index piece ↦ if index ∈ placed then none else some piece

theorem slotsLeft_nil (pieces : List Node) : slotsLeft pieces [] = pieces.map some := by
  apply List.ext_getElem?
  intro index
  simp [slotsLeft]

theorem join_getElem?_slotsLeft (pieces : List Node) (placed : List Nat) (index : Nat) :
    (slotsLeft pieces placed)[index]?.join =
      if index ∈ placed then none else pieces[index]? := by
  by_cases hplaced : index ∈ placed
  · cases h : pieces[index]? <;> simp [slotsLeft, h, hplaced]
  · cases h : pieces[index]? <;> simp [slotsLeft, h, hplaced]

theorem set_slotsLeft (pieces : List Node) (placed : List Nat) (index : Nat) :
    (slotsLeft pieces placed).set index none = slotsLeft pieces (index :: placed) := by
  apply List.ext_getElem?
  intro other
  rw [List.getElem?_set]
  by_cases h : index = other
  · subst h
    by_cases hlength : index < pieces.length <;> simp [slotsLeft, hlength]
  · have hother : other ≠ index := Ne.symm h
    simp [slotsLeft, h, hother]

theorem slot?_eq_bind (tag : String) (attributes : Attributes) (slots : List (Option Node)) :
    slot? tag attributes slots =
      (standInIndex? tag attributes).bind fun index ↦
        slots[index]?.join.map fun piece ↦ (index, piece) := by
  by_cases htag : tag = standInTag
  · cases hindex : attributes.get? standInAttribute >>= index? with
    | none => simp [slot?, standInIndex?, htag, hindex]
    | some index =>
      cases hslot : slots[index]?.join <;>
        simp [slot?, standInIndex?, guard, htag, hindex, hslot]
  · simp [slot?, standInIndex?, guard, htag]

/-- The table finds a piece for the stand-ins that `Grafted.place` replaces. -/
theorem slot?_slotsLeft_eq_some_iff {tag : String} {attributes : Attributes} {pieces : List Node}
    {placed : List Nat} {index : Nat} {piece : Node} :
    slot? tag attributes (slotsLeft pieces placed) = some (index, piece) ↔
      standInIndex? tag attributes = some index ∧ index ∉ placed ∧
        pieces[index]? = some piece := by
  rw [slot?_eq_bind]
  cases hindex : standInIndex? tag attributes with
  | none => simp
  | some found =>
    rw [Option.bind_some, join_getElem?_slotsLeft]
    by_cases hplaced : found ∈ placed
    · simp only [hplaced, if_true, Option.map_none, reduceCtorEq, Option.some.injEq, false_iff]
      rintro ⟨rfl, hfresh, -⟩
      exact hfresh hplaced
    · simp only [hplaced, if_false, Option.map_eq_some_iff, Prod.mk.injEq, Option.some.injEq]
      constructor
      · rintro ⟨_, hpiece, rfl, rfl⟩
        exact ⟨rfl, hplaced, hpiece⟩
      · rintro ⟨rfl, -, hpiece⟩
        exact ⟨piece, hpiece, rfl, rfl⟩

/-- The table finds no piece for the elements that `Grafted.element` keeps. -/
theorem slot?_slotsLeft_eq_none_iff {tag : String} {attributes : Attributes} {pieces : List Node}
    {placed : List Nat} :
    slot? tag attributes (slotsLeft pieces placed) = none ↔
      ∀ index, standInIndex? tag attributes = some index → index < pieces.length →
        index ∈ placed := by
  constructor
  · intro hnone index hindex hlength
    by_contra hfresh
    have hsome := slot?_slotsLeft_eq_some_iff.2
      ⟨hindex, hfresh, List.getElem?_eq_getElem hlength⟩
    rw [hnone] at hsome
    cases hsome
  · intro hkeep
    cases hslot : slot? tag attributes (slotsLeft pieces placed) with
    | none => rfl
    | some found =>
      obtain ⟨hindex, hfresh, hpiece⟩ := slot?_slotsLeft_eq_some_iff.1 hslot
      have hlength := (List.getElem?_eq_some_iff.1 hpiece).1
      exact absurd (hkeep _ hindex hlength) hfresh

/-! ## The pass and the relation -/

mutual

theorem exists_grafted (pieces : List Node) (placed : List Nat) :
    ∀ node, ∃ node' placed', Grafted pieces placed node node' placed'
  | .text value => ⟨.text value, placed, .text⟩
  | .root children => by
    obtain ⟨children', placed', h⟩ := exists_graftedAll pieces placed children
    exact ⟨.root children', placed', .root h⟩
  | .element tag attributes children => by
    cases hslot : slot? tag attributes (slotsLeft pieces placed) with
    | some found =>
      obtain ⟨hindex, hfresh, hpiece⟩ := slot?_slotsLeft_eq_some_iff.1 hslot
      exact ⟨found.2, found.1 :: placed, .place hindex hfresh hpiece⟩
    | none =>
      obtain ⟨children', placed', h⟩ := exists_graftedAll pieces placed children
      exact ⟨.element tag attributes children', placed',
        .element (slot?_slotsLeft_eq_none_iff.1 hslot) h⟩

/-- Every forest can be gone through. -/
theorem exists_graftedAll (pieces : List Node) (placed : List Nat) :
    ∀ nodes, ∃ nodes' placed', GraftedAll pieces placed nodes nodes' placed'
  | [] => ⟨[], placed, .nil⟩
  | node :: rest => by
    obtain ⟨node', placed', hnode⟩ := exists_grafted pieces placed node
    obtain ⟨rest', placed'', hrest⟩ := exists_graftedAll pieces placed' rest
    exact ⟨node' :: rest', placed'', .cons hnode hrest⟩

end

mutual

theorem Grafted.fill_eq {pieces : List Node} {placed placed' : List Nat} {node node' : Node} :
    Grafted pieces placed node node' placed' →
      fill (slotsLeft pieces placed) node = (node', slotsLeft pieces placed')
  | .place hindex hfresh hpiece => by
    have hslot := slot?_slotsLeft_eq_some_iff.2 ⟨hindex, hfresh, hpiece⟩
    simp only [fill, hslot, set_slotsLeft]
  | .element hkeep hchildren => by
    have hslot := slot?_slotsLeft_eq_none_iff.2 hkeep
    simp only [fill, hslot, GraftedAll.fillAll_eq hchildren]
  | .root hchildren => by
    simp only [fill, GraftedAll.fillAll_eq hchildren]
  | .text => by
    simp only [fill]

/-- The pass over a forest gives what the relation says, and the table of what is left. -/
theorem GraftedAll.fillAll_eq {pieces : List Node} {placed placed' : List Nat}
    {nodes nodes' : List Node} :
    GraftedAll pieces placed nodes nodes' placed' →
      fillAll (slotsLeft pieces placed) nodes = (nodes', slotsLeft pieces placed')
  | .nil => by
    simp only [fillAll]
  | .cons hnode hrest => by
    simp only [fillAll, Grafted.fill_eq hnode, GraftedAll.fillAll_eq hrest]

end

/-! ## The pieces in place -/

/-- Indices of pieces, each at most once. -/
structure Distinct (count : Nat) (placed : List Nat) : Prop where
  nodup : placed.Nodup
  lt_count : ∀ index ∈ placed, index < count

theorem Distinct.nil (count : Nat) : Distinct count [] :=
  ⟨List.nodup_nil, by simp⟩

theorem Distinct.cons {count index : Nat} {placed : List Nat} (h : Distinct count placed)
    (hfresh : index ∉ placed) (hlt : index < count) : Distinct count (index :: placed) := by
  constructor
  · exact List.nodup_cons.2 ⟨hfresh, h.nodup⟩
  · intro other hmem
    rcases List.mem_cons.1 hmem with rfl | hmem
    · exact hlt
    · exact h.lt_count other hmem

mutual

theorem Grafted.distinct {pieces : List Node} {placed placed' : List Nat} {node node' : Node} :
    Grafted pieces placed node node' placed' → Distinct pieces.length placed →
      Distinct pieces.length placed'
  | .place _ hfresh hpiece, h => h.cons hfresh (List.getElem?_eq_some_iff.1 hpiece).1
  | .element _ hchildren, h => GraftedAll.distinct hchildren h
  | .root hchildren, h => GraftedAll.distinct hchildren h
  | .text, h => h

/-- No piece is put in twice. -/
theorem GraftedAll.distinct {pieces : List Node} {placed placed' : List Nat}
    {nodes nodes' : List Node} :
    GraftedAll pieces placed nodes nodes' placed' → Distinct pieces.length placed →
      Distinct pieces.length placed'
  | .nil, h => h
  | .cons hnode hrest, h => GraftedAll.distinct hrest (Grafted.distinct hnode h)

end

/-- Distinct indices are all of them as soon as none is missing. -/
theorem Distinct.perm_range_iff {count : Nat} {placed : List Nat} (h : Distinct count placed) :
    placed.Perm (List.range count) ↔ ∀ index < count, index ∈ placed := by
  rw [List.perm_ext_iff_of_nodup h.nodup List.nodup_range]
  constructor
  · intro hiff index hlt
    exact (hiff index).2 (List.mem_range.2 hlt)
  · intro hall index
    rw [List.mem_range]
    exact ⟨h.lt_count index, hall index⟩

/-- The least index of a piece that is not in place. -/
structure LeastMissing (count : Nat) (placed : List Nat) (index : Nat) : Prop where
  lt_count : index < count
  missing : index ∉ placed
  least : ∀ earlier < index, earlier ∈ placed

theorem isSome_slotsLeft {pieces : List Node} {placed : List Nat} {index : Nat}
    (h : index < (slotsLeft pieces placed).length) :
    (slotsLeft pieces placed)[index].isSome ↔ index ∉ placed := by
  by_cases hplaced : index ∈ placed <;> simp [slotsLeft, hplaced]

theorem length_slotsLeft (pieces : List Node) (placed : List Nat) :
    (slotsLeft pieces placed).length = pieces.length := by
  simp [slotsLeft]

/-- Nothing is left in the table exactly if all pieces are in place. -/
theorem findIdx?_slotsLeft_eq_none_iff {pieces : List Node} {placed : List Nat} :
    (slotsLeft pieces placed).findIdx? Option.isSome = none ↔
      ∀ index < pieces.length, index ∈ placed := by
  simp only [List.findIdx?_eq_none_iff, List.forall_mem_iff_forall_getElem, length_slotsLeft]
  refine forall₂_congr fun index hlt ↦ ?_
  have hlength : index < (slotsLeft pieces placed).length := by rwa [length_slotsLeft]
  have h := isSome_slotsLeft hlength
  by_cases hplaced : index ∈ placed <;> simp_all

/-- The first piece that is left in the table is the least one that is missing. -/
theorem findIdx?_slotsLeft_eq_some_iff {pieces : List Node} {placed : List Nat} {index : Nat} :
    (slotsLeft pieces placed).findIdx? Option.isSome = some index ↔
      LeastMissing pieces.length placed index := by
  rw [List.findIdx?_eq_some_iff_getElem]
  constructor
  · rintro ⟨hlength, hsome, hearlier⟩
    refine ⟨by rwa [length_slotsLeft] at hlength, (isSome_slotsLeft hlength).1 hsome, ?_⟩
    intro earlier hlt
    by_contra hfresh
    exact hearlier earlier hlt ((isSome_slotsLeft (Nat.lt_trans hlt hlength)).2 hfresh)
  · rintro ⟨hlt, hmissing, hleast⟩
    have hlength : index < (slotsLeft pieces placed).length := by rwa [length_slotsLeft]
    refine ⟨hlength, (isSome_slotsLeft hlength).2 hmissing, ?_⟩
    intro earlier hearlier hsome
    exact (isSome_slotsLeft (Nat.lt_trans hearlier hlength)).1 hsome (hleast earlier hearlier)

end NotebookTree.Draft
