import Mathlib.Data.List.Forall2
import NotebookTree.Proofs.Outcome
import NotebookTree.Proofs.Prose.Grafting

/-!
# Conservation of elements

Lowering keeps every element of the drafts exactly once. `Lowered` and `LoweredAll` say what the
lowered form of a draft and of a list of siblings is, at every level of the tree and without a
table of slots. Siblings without raw markup are lowered one by one. Among siblings with raw markup,
the fragment is compiled, and each lowered element is grafted on it in one place.

The HTML parser is only used through what it gives for the text of a fragment.
-/

namespace NotebookTree.Draft

open Outcome

/-! ## Lists of siblings, one by one -/

theorem lowerEach_eq_ok_iff {limit : Nat} {drafts : List Draft} {lowered : List Node} :
    lowerEach limit drafts = .ok lowered ↔
      List.Forall₂ (fun draft node ↦ lower limit draft = .ok node) drafts lowered := by
  induction drafts generalizing lowered with
  | nil => simp [lowerEach, eq_comm]
  | cons draft rest ih =>
    simp only [lowerEach, bind_eq_ok, pure_eq_ok, ih]
    constructor
    · rintro ⟨node, hnode, nodes, hnodes, rfl⟩
      exact .cons hnode hnodes
    · intro h
      cases h with
      | cons hnode hnodes => exact ⟨_, hnode, _, hnodes, rfl⟩

/-- The lowered elements among lowered siblings. -/
def pieces (drafts : List Draft) (lowered : List Node) : List Node :=
  ((drafts.zip lowered).filter (·.1.isElement)).map (·.2)

theorem forall₂_pieces {related : Draft → Node → Prop} {drafts : List Draft}
    {lowered : List Node} (h : List.Forall₂ related drafts lowered) :
    List.Forall₂ related (drafts.filter isElement) (pieces drafts lowered) := by
  induction h with
  | nil => exact .nil
  | @cons draft node rest nodes hnode hrest ih =>
    by_cases helement : draft.isElement
    · simpa [pieces, helement] using List.Forall₂.cons hnode ih
    · simpa [pieces, helement] using ih

/-- Texts and raw markup never fail, so siblings are lowered as soon as the elements are. -/
theorem exists_lowerEach {limit : Nat} {drafts : List Draft} {found : List Node}
    (h : List.Forall₂ (fun draft node ↦ lower limit draft = .ok node)
      (drafts.filter isElement) found) :
    ∃ lowered, lowerEach limit drafts = .ok lowered ∧ pieces drafts lowered = found := by
  simp only [lowerEach_eq_ok_iff]
  induction drafts generalizing found with
  | nil =>
    cases h
    exact ⟨[], .nil, rfl⟩
  | cons draft rest ih =>
    cases draft with
    | element tag attributes children =>
      rw [List.filter_cons_of_pos rfl] at h
      cases h with
      | @cons _ piece _ others hpiece hothers =>
        obtain ⟨lowered, hlowered, rfl⟩ := ih hothers
        exact ⟨piece :: lowered, .cons hpiece hlowered, rfl⟩
    | text value =>
      rw [List.filter_cons_of_neg Bool.false_ne_true] at h
      obtain ⟨lowered, hlowered, rfl⟩ := ih h
      exact ⟨.text value :: lowered, .cons rfl hlowered, rfl⟩
    | raw markup =>
      rw [List.filter_cons_of_neg Bool.false_ne_true] at h
      obtain ⟨lowered, hlowered, rfl⟩ := ih h
      exact ⟨.text markup :: lowered, .cons rfl hlowered, rfl⟩

/-! ## Settling -/

theorem settle_plain {limit : Nat} {drafts : List Draft} {lowered : List Node}
    (hplain : ∀ draft ∈ drafts, ¬draft.isRaw) : settle limit drafts lowered = .ok lowered := by
  have hany : drafts.any isRaw = false := by simpa using hplain
  simp [settle, hany]

/-- With raw markup, the outcome is that of the fragment and of the pass over it. -/
theorem settle_mixed {limit : Nat} {drafts : List Draft} {lowered parsed nodes : List Node}
    {placed : List Nat} (hraw : ∃ draft ∈ drafts, draft.isRaw)
    (hparsed : Html.compileFragment limit (String.ofList (fragment 0 drafts)) = .ok parsed)
    (hgrafted : GraftedAll (pieces drafts lowered) [] parsed nodes placed) :
    settle limit drafts lowered =
      match (slotsLeft (pieces drafts lowered) placed).findIdx? Option.isSome with
      | some index => .error (.html ("raw HTML dropped markdown element " ++ toString index))
      | none => .ok nodes := by
  have hany : drafts.any isRaw = true := by simpa using hraw
  have hfilled := hgrafted.fillAll_eq
  rw [slotsLeft_nil, pieces, List.map_map] at hfilled
  simp only [settle, hany, Bool.not_true, Bool.false_eq_true, if_false, hparsed]
  simp only [bind, Except.bind, Function.comp_def] at hfilled ⊢
  rw [hfilled]
  rfl

theorem settle_eq_ok {limit : Nat} {drafts : List Draft} {lowered parsed nodes : List Node}
    {placed : List Nat} (hraw : ∃ draft ∈ drafts, draft.isRaw)
    (hparsed : Html.compileFragment limit (String.ofList (fragment 0 drafts)) = .ok parsed)
    (hgrafted : GraftedAll (pieces drafts lowered) [] parsed nodes placed)
    (hplaced : placed.Perm (List.range (pieces drafts lowered).length)) :
    settle limit drafts lowered = .ok nodes := by
  have hall := ((hgrafted.distinct (.nil _)).perm_range_iff).1 hplaced
  rw [settle_mixed hraw hparsed hgrafted, findIdx?_slotsLeft_eq_none_iff.2 hall]

/-- A lowered element without a stand-in is named by its index. -/
theorem settle_eq_error {limit : Nat} {drafts : List Draft} {lowered parsed nodes : List Node}
    {placed : List Nat} {index : Nat} (hraw : ∃ draft ∈ drafts, draft.isRaw)
    (hparsed : Html.compileFragment limit (String.ofList (fragment 0 drafts)) = .ok parsed)
    (hgrafted : GraftedAll (pieces drafts lowered) [] parsed nodes placed)
    (hmissing : LeastMissing (pieces drafts lowered).length placed index) :
    settle limit drafts lowered =
      .error (.html ("raw HTML dropped markdown element " ++ toString index)) := by
  rw [settle_mixed hraw hparsed hgrafted, findIdx?_slotsLeft_eq_some_iff.2 hmissing]

/-- What is settled among raw markup is grafted on the fragment, with all pieces in place. -/
theorem exists_of_settle_eq_ok {limit : Nat} {drafts : List Draft} {lowered nodes : List Node}
    (hraw : ∃ draft ∈ drafts, draft.isRaw) (h : settle limit drafts lowered = .ok nodes) :
    ∃ parsed placed,
      Html.compileFragment limit (String.ofList (fragment 0 drafts)) = .ok parsed ∧
        GraftedAll (pieces drafts lowered) [] parsed nodes placed ∧
        placed.Perm (List.range (pieces drafts lowered).length) := by
  have hany : drafts.any isRaw = true := by simpa using hraw
  cases hparsed : Html.compileFragment limit (String.ofList (fragment 0 drafts)) with
  | error error => simp [settle, hany, hparsed, bind, Except.bind] at h
  | ok parsed =>
    obtain ⟨nodes', placed, hgrafted⟩ := exists_graftedAll (pieces drafts lowered) [] parsed
    rw [settle_mixed hraw hparsed hgrafted] at h
    cases hindex : (slotsLeft (pieces drafts lowered) placed).findIdx? Option.isSome with
    | some index =>
      rw [hindex] at h
      cases h
    | none =>
      rw [hindex] at h
      cases h
      have hall := findIdx?_slotsLeft_eq_none_iff.1 hindex
      exact ⟨parsed, placed, rfl, hgrafted,
        ((hgrafted.distinct (.nil _)).perm_range_iff).2 hall⟩

/-! ## One level of the tree -/

theorem lowerAll_plain_iff {limit : Nat} {drafts : List Draft} {nodes : List Node}
    (hplain : ∀ draft ∈ drafts, ¬draft.isRaw) :
    lowerAll limit drafts = .ok nodes ↔
      List.Forall₂ (fun draft node ↦ lower limit draft = .ok node) drafts nodes := by
  simp only [lowerAll, bind_eq_ok, settle_plain hplain, lowerEach_eq_ok_iff]
  constructor
  · rintro ⟨lowered, hlowered, hnodes⟩
    cases hnodes
    exact hlowered
  · intro h
    exact ⟨nodes, h, rfl⟩

theorem lowerAll_mixed_iff {limit : Nat} {drafts : List Draft} {nodes : List Node}
    (hraw : ∃ draft ∈ drafts, draft.isRaw) :
    lowerAll limit drafts = .ok nodes ↔
      ∃ found parsed placed,
        List.Forall₂ (fun draft node ↦ lower limit draft = .ok node)
          (drafts.filter isElement) found ∧
        Html.compileFragment limit (String.ofList (fragment 0 drafts)) = .ok parsed ∧
        GraftedAll found [] parsed nodes placed ∧
        placed.Perm (List.range found.length) := by
  simp only [lowerAll, bind_eq_ok]
  constructor
  · rintro ⟨lowered, hlowered, hsettle⟩
    have hfound := forall₂_pieces (lowerEach_eq_ok_iff.1 hlowered)
    obtain ⟨parsed, placed, hparsed, hgrafted, hplaced⟩ := exists_of_settle_eq_ok hraw hsettle
    exact ⟨pieces drafts lowered, parsed, placed, hfound, hparsed, hgrafted, hplaced⟩
  · rintro ⟨found, parsed, placed, hfound, hparsed, hgrafted, hplaced⟩
    obtain ⟨lowered, hlowered, rfl⟩ := exists_lowerEach hfound
    exact ⟨lowered, hlowered, settle_eq_ok hraw hparsed hgrafted hplaced⟩

/-- If the pass reaches no stand-in of an element, the least such element is named. -/
theorem lowerAll_eq_error {limit index : Nat} {drafts : List Draft}
    {found parsed nodes : List Node} {placed : List Nat}
    (hraw : ∃ draft ∈ drafts, draft.isRaw)
    (hfound : List.Forall₂ (fun draft node ↦ lower limit draft = .ok node)
      (drafts.filter isElement) found)
    (hparsed : Html.compileFragment limit (String.ofList (fragment 0 drafts)) = .ok parsed)
    (hgrafted : GraftedAll found [] parsed nodes placed)
    (hmissing : LeastMissing found.length placed index) :
    lowerAll limit drafts =
      .error (.html ("raw HTML dropped markdown element " ++ toString index)) := by
  obtain ⟨lowered, hlowered, rfl⟩ := exists_lowerEach hfound
  rw [lowerAll, hlowered]
  exact settle_eq_error hraw hparsed hgrafted hmissing

theorem lower_element_eq_ok_iff {limit : Nat} {tag : String} {attributes : Attributes}
    {children : List Draft} {node : Node} :
    lower limit (.element tag attributes children) = .ok node ↔
      ∃ nodes, lowerAll limit children = .ok nodes ∧ node = .element tag attributes nodes := by
  simp only [lower, lowerAll, bind_eq_ok, pure_eq_ok]
  constructor
  · rintro ⟨lowered, hlowered, nodes, hsettle, rfl⟩
    exact ⟨nodes, ⟨lowered, hlowered, hsettle⟩, rfl⟩
  · rintro ⟨nodes, ⟨lowered, hlowered, hsettle⟩, rfl⟩
    exact ⟨lowered, hlowered, nodes, hsettle, rfl⟩

/-! ## Every level of the tree -/

mutual

/-- The lowered form of a text or an element. An element keeps its tag and its attributes, and its
children are lowered as a list of siblings of their own. -/
inductive Lowered (limit : Nat) : Draft → Node → Prop where
  | text {value : String} : Lowered limit (.text value) (.text value)
  | element {tag : String} {attributes : Attributes} {children : List Draft} {nodes : List Node} :
      LoweredAll limit children nodes →
      Lowered limit (.element tag attributes children) (.element tag attributes nodes)

/-- The lowered form of a list of siblings. -/
inductive LoweredAll (limit : Nat) : List Draft → List Node → Prop where
  /-- Without raw markup the siblings are lowered node by node. -/
  | plain {drafts : List Draft} {nodes : List Node} :
      (∀ draft ∈ drafts, ¬draft.isRaw) → List.Forall₂ (Lowered limit) drafts nodes →
      LoweredAll limit drafts nodes
  /-- With raw markup the lowered elements are grafted on the fragment, each once. -/
  | mixed {drafts : List Draft} {nodes found parsed : List Node} {placed : List Nat} :
      (∃ draft ∈ drafts, draft.isRaw) →
      List.Forall₂ (Lowered limit) (drafts.filter isElement) found →
      Html.compileFragment limit (String.ofList (fragment 0 drafts)) = .ok parsed →
      GraftedAll found [] parsed nodes placed →
      placed.Perm (List.range found.length) →
      LoweredAll limit drafts nodes

end

theorem forall₂_congr_of_forall_mem {related related' : Draft → Node → Prop}
    {drafts : List Draft} (nodes : List Node)
    (h : ∀ draft ∈ drafts, ∀ node, related draft node ↔ related' draft node) :
    List.Forall₂ related drafts nodes ↔ List.Forall₂ related' drafts nodes := by
  induction drafts generalizing nodes with
  | nil => simp
  | cons draft rest ih =>
    cases nodes with
    | nil => simp
    | cons node nodes =>
      have hrest := ih nodes fun other hmem ↦ h other (List.mem_cons_of_mem _ hmem)
      simp only [List.forall₂_cons, h draft List.mem_cons_self, hrest]

/-- Elements are no raw markup. -/
theorem not_isRaw_of_mem_filter {drafts : List Draft} {draft : Draft}
    (h : draft ∈ drafts.filter isElement) : draft ∈ drafts ∧ ¬draft.isRaw := by
  obtain ⟨hmem, helement⟩ := List.mem_filter.1 h
  refine ⟨hmem, fun hisRaw ↦ ?_⟩
  cases draft with
  | raw markup => cases helement
  | text value => cases hisRaw
  | element tag attributes children => cases hisRaw

theorem loweredAll_iff_of_forall_mem {limit : Nat} {drafts : List Draft} (nodes : List Node)
    (h : ∀ draft ∈ drafts, ¬draft.isRaw →
      ∀ node, Lowered limit draft node ↔ lower limit draft = .ok node) :
    LoweredAll limit drafts nodes ↔ lowerAll limit drafts = .ok nodes := by
  by_cases hraw : ∃ draft ∈ drafts, draft.isRaw
  · have hfound (found : List Node) := forall₂_congr_of_forall_mem found
      fun draft (hmem : draft ∈ drafts.filter isElement) ↦
        h draft (not_isRaw_of_mem_filter hmem).1 (not_isRaw_of_mem_filter hmem).2
    rw [lowerAll_mixed_iff hraw]
    constructor
    · intro hall
      cases hall with
      | plain hplain =>
        obtain ⟨draft, hmem, hisRaw⟩ := hraw
        exact absurd hisRaw (hplain draft hmem)
      | @mixed _ _ found parsed placed _ hrelated hparsed hgrafted hplaced =>
        exact ⟨found, parsed, placed, (hfound found).1 hrelated, hparsed, hgrafted, hplaced⟩
    · rintro ⟨found, parsed, placed, hrelated, hparsed, hgrafted, hplaced⟩
      exact .mixed hraw ((hfound found).2 hrelated) hparsed hgrafted hplaced
  · have hplain : ∀ draft ∈ drafts, ¬draft.isRaw := fun draft hmem hisRaw ↦
      hraw ⟨draft, hmem, hisRaw⟩
    have hnodes := forall₂_congr_of_forall_mem nodes
      fun draft hmem ↦ h draft hmem (hplain draft hmem)
    rw [lowerAll_plain_iff hplain]
    constructor
    · intro hall
      cases hall with
      | plain _ hrelated => exact hnodes.1 hrelated
      | mixed hsome => exact absurd hsome hraw
    · intro hrelated
      exact .plain hplain (hnodes.2 hrelated)

mutual

theorem lowered_iff (limit : Nat) :
    ∀ draft, ¬draft.isRaw → ∀ node, Lowered limit draft node ↔ lower limit draft = .ok node
  | .raw markup, hisRaw, _ => absurd rfl hisRaw
  | .text value, _, node => by
    constructor
    · intro h
      cases h
      rfl
    · intro h
      cases h
      exact .text
  | .element tag attributes children, _, node => by
    have hchildren (nodes : List Node) :=
      loweredAll_iff_of_forall_mem nodes (forall_mem_lowered_iff limit children)
    rw [lower_element_eq_ok_iff]
    constructor
    · intro h
      cases h with
      | @element _ _ _ nodes hall => exact ⟨nodes, (hchildren nodes).1 hall, rfl⟩
    · rintro ⟨nodes, hnodes, rfl⟩
      exact .element ((hchildren nodes).2 hnodes)

theorem forall_mem_lowered_iff (limit : Nat) :
    ∀ drafts : List Draft, ∀ draft ∈ drafts, ¬draft.isRaw →
      ∀ node, Lowered limit draft node ↔ lower limit draft = .ok node
  | [] => by simp
  | first :: rest => by
    have hfirst := lowered_iff limit first
    have hrest := forall_mem_lowered_iff limit rest
    intro draft hmem
    rcases List.mem_cons.1 hmem with rfl | hmem
    · exact hfirst
    · exact hrest draft hmem

end

/-- The relation holds of exactly what lowering gives. -/
theorem loweredAll_iff {limit : Nat} {drafts : List Draft} {nodes : List Node} :
    LoweredAll limit drafts nodes ↔ lowerAll limit drafts = .ok nodes :=
  loweredAll_iff_of_forall_mem nodes (forall_mem_lowered_iff limit drafts)

/-! ## Conservation -/

/-- Indices of all pieces, each once, name the pieces as they are. -/
theorem map_getElem?_perm {found : List Node} {placed : List Nat}
    (h : placed.Perm (List.range found.length)) :
    (placed.map fun index ↦ found[index]?).Perm (found.map some) := by
  have hrange : (List.range found.length).map (fun index ↦ found[index]?) = found.map some := by
    apply List.ext_getElem
    · simp
    · intro index hleft hright
      simp only [List.length_map, List.length_range] at hleft
      simp [hleft]
  rw [← hrange]
  exact h.map _

/-- Lowering conserves the elements of siblings, at every level of the tree. Where the fragment
compiles, the pass over it either puts each element in one place, or the least element that has no
place is named. -/
theorem lowerAll_conserves_elements (limit : Nat) (drafts : List Draft) :
    (∀ nodes, lowerAll limit drafts = .ok nodes ↔ LoweredAll limit drafts nodes) ∧
      ∀ found parsed, (∃ draft ∈ drafts, draft.isRaw) →
        List.Forall₂ (Lowered limit) (drafts.filter isElement) found →
        Html.compileFragment limit (String.ofList (fragment 0 drafts)) = .ok parsed →
        (∃ nodes placed, GraftedAll found [] parsed nodes placed) ∧
          ∀ nodes placed, GraftedAll found [] parsed nodes placed →
            (lowerAll limit drafts = .ok nodes ∧
              placed.length = (drafts.filter isElement).length ∧
              (placed.map fun index ↦ found[index]?).Perm (found.map some)) ∨
            ∃ index, LeastMissing found.length placed index ∧
              lowerAll limit drafts =
                .error (.html ("raw HTML dropped markdown element " ++ toString index)) := by
  refine ⟨fun nodes ↦ loweredAll_iff.symm, ?_⟩
  intro found parsed hraw hfound hparsed
  refine ⟨exists_graftedAll found [] parsed, ?_⟩
  intro nodes placed hgrafted
  cases hleft : (slotsLeft found placed).findIdx? Option.isSome with
  | none =>
    have hall := findIdx?_slotsLeft_eq_none_iff.1 hleft
    have hplaced := ((hgrafted.distinct (.nil _)).perm_range_iff).2 hall
    refine .inl ⟨?_, ?_, map_getElem?_perm hplaced⟩
    · exact loweredAll_iff.1 (.mixed hraw hfound hparsed hgrafted hplaced)
    · rw [hplaced.length_eq, List.length_range, hfound.length_eq]
  | some index =>
    have hmissing := findIdx?_slotsLeft_eq_some_iff.1 hleft
    have hlower := (forall₂_congr_of_forall_mem found fun draft hmem ↦
      lowered_iff limit draft (not_isRaw_of_mem_filter hmem).2).1 hfound
    exact .inr ⟨index, hmissing, lowerAll_eq_error hraw hlower hparsed hgrafted hmissing⟩

/-- Emphasis between the tags of bold markup. -/
def boldEmphasis : List Draft :=
  [.raw "<b>", .ofTag "em" [.text "y"], .raw "</b>"]

theorem lowerAll_conserves_boldEmphasis :
    (∃ draft ∈ boldEmphasis, draft.isRaw) ∧
      List.Forall₂ (Lowered 16) (boldEmphasis.filter isElement)
        [.element "em" .empty [.text "y"]] ∧
      ∃ parsed nodes placed,
        Html.compileFragment 16 (String.ofList (fragment 0 boldEmphasis)) = .ok parsed ∧
        GraftedAll [.element "em" .empty [.text "y"]] [] parsed nodes placed ∧
        ((lowerAll 16 boldEmphasis = .ok nodes ∧ placed.length = 1 ∧
            (placed.map fun index ↦ [Node.element "em" .empty [.text "y"]][index]?).Perm
              [some (.element "em" .empty [.text "y"])]) ∨
          ∃ index, LeastMissing 1 placed index ∧
            lowerAll 16 boldEmphasis =
              .error (.html ("raw HTML dropped markdown element " ++ toString index))) := by
  have hraw : ∃ draft ∈ boldEmphasis, draft.isRaw := ⟨.raw "<b>", List.mem_cons_self, rfl⟩
  have hfound : List.Forall₂ (Lowered 16) (boldEmphasis.filter isElement)
      [.element "em" .empty [.text "y"]] := by
    refine .cons (.element (.plain ?_ (.cons .text .nil))) .nil
    simp [isRaw]
  have hok : (Html.compileFragment 16 (String.ofList (fragment 0 boldEmphasis))).isOk = true := by
    decide +kernel
  obtain ⟨parsed, hparsed⟩ := exists_eq_ok hok
  obtain ⟨⟨nodes, placed, hgrafted⟩, houtcome⟩ :=
    (lowerAll_conserves_elements 16 boldEmphasis).2 _ parsed hraw hfound hparsed
  exact ⟨hraw, hfound, parsed, nodes, placed, hparsed, hgrafted,
    houtcome nodes placed hgrafted⟩

end NotebookTree.Draft
