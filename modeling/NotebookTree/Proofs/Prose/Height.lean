import Mathlib.Tactic.Ring
import NotebookTree.Proofs.Prose.Conservation

/-!
# Heights of trees

The height of a tree is the depth of its deepest element. `Html.heights_compileFragment_le` bounds
the height of a compiled fragment by the limit. Grafting may exceed it: `Draft.nesting` computes the
height of lowered drafts from the fragments alone, in which a stand-in counts as high as the element
that takes its place, and `Draft.heights_of_loweredAll` shows that nothing else matters.
-/

namespace NotebookTree

open Outcome

mutual

/-- The depth of the deepest element of a node. -/
def Node.height : Node → Nat
  | .root children => Node.heights children
  | .element _ _ children => Node.heights children + 1
  | .text _ => 0

/-- The depth of the deepest element of a list, whose own elements have depth one. -/
def Node.heights : List Node → Nat
  | [] => 0
  | node :: rest => max node.height (Node.heights rest)

end

mutual

/-- The depth of the deepest element of a draft. -/
def Draft.height : Draft → Nat
  | .element _ _ children => Draft.heights children + 1
  | .text _ => 0
  | .raw _ => 0

/-- The depth of the deepest element of a list of drafts. -/
def Draft.heights : List Draft → Nat
  | [] => 0
  | draft :: rest => max draft.height (Draft.heights rest)

end

theorem Node.heights_append (first second : List Node) :
    heights (first ++ second) = max (heights first) (heights second) := by
  induction first with
  | nil => simp [heights]
  | cons node rest ih => simp only [List.cons_append, heights, ih, Nat.max_assoc]

theorem Draft.heights_le_iff {drafts : List Draft} {bound : Nat} :
    heights drafts ≤ bound ↔ ∀ draft ∈ drafts, draft.height ≤ bound := by
  induction drafts with
  | nil => simp [heights]
  | cons draft rest ih => simp only [heights, Nat.max_le, List.forall_mem_cons, ih]

theorem Draft.height_le_heights {draft : Draft} {drafts : List Draft} (h : draft ∈ drafts) :
    draft.height ≤ heights drafts :=
  heights_le_iff.1 (Nat.le_refl _) draft h

theorem Draft.heights_le_of_subset {drafts others : List Draft} (h : drafts ⊆ others) :
    heights drafts ≤ heights others := by
  apply heights_le_iff.2
  intro draft hmem
  exact height_le_heights (h hmem)

/-! ## Compiled fragments -/

mutual

theorem Html.heights_of_lowerNode {limit : Nat} :
    ∀ node depth nodes, lowerNode limit depth node = .ok nodes →
      Node.heights nodes ≤ limit + 1 - depth
  | .text value, depth, nodes, h => by
    cases h
    exact Nat.zero_le _
  | .comment, depth, nodes, h => by
    cases h
    exact Nat.zero_le _
  | .contents _, depth, nodes, h => by
    cases h
    exact Nat.zero_le _
  | .element name attributes children, depth, nodes, h => by
    simp only [lowerNode] at h
    split at h
    · cases h
    · next hdepth =>
      obtain ⟨below, hbelow, hnodes⟩ := bind_eq_ok.1 h
      have hheight := heights_of_lowerNodes children (depth + 1) below hbelow
      cases hnodes
      simp only [Node.heights, Node.height]
      omega

theorem Html.heights_of_lowerNodes {limit : Nat} :
    ∀ tree depth nodes, lowerNodes limit depth tree = .ok nodes →
      Node.heights nodes ≤ limit + 1 - depth
  | [], depth, nodes, h => by
    cases h
    exact Nat.zero_le _
  | node :: rest, depth, nodes, h => by
    simp only [lowerNodes] at h
    obtain ⟨first, hfirst, h⟩ := bind_eq_ok.1 h
    obtain ⟨others, hothers, h⟩ := bind_eq_ok.1 h
    have hleft := heights_of_lowerNode node depth first hfirst
    have hright := heights_of_lowerNodes rest depth others hothers
    cases h
    rw [Node.heights_append]
    exact Nat.max_le.2 ⟨hleft, hright⟩

end

/-- A fragment that compiles is no higher than the limit. -/
theorem Html.heights_compileFragment_le {limit : Nat} {html : String} {nodes : List Node}
    (h : compileFragment limit html = .ok nodes) : Node.heights nodes ≤ limit := by
  unfold compileFragment at h
  split at h
  · cases h
    exact Nat.zero_le _
  · exact heights_of_lowerNodes _ 1 nodes h

namespace Draft

/-! ## Grafted trees -/

/-- The piece that takes the place of an element: its index and its height. -/
def weight? (weights : List Nat) (placed : List Nat) (tag : String) (attributes : Attributes) :
    Option (Nat × Nat) :=
  (standInIndex? tag attributes).bind fun index ↦
    if index ∈ placed then none else weights[index]?.map fun weight ↦ (index, weight)

theorem weight?_of_place {weights placed : List Nat} {tag : String} {attributes : Attributes}
    {index weight : Nat} (hindex : standInIndex? tag attributes = some index)
    (hfresh : index ∉ placed) (hweight : weights[index]? = some weight) :
    weight? weights placed tag attributes = some (index, weight) := by
  simp [weight?, hindex, hfresh, hweight]

theorem weight?_of_keep {weights placed : List Nat} {tag : String} {attributes : Attributes}
    (hkeep : ∀ index, standInIndex? tag attributes = some index → index < weights.length →
      index ∈ placed) : weight? weights placed tag attributes = none := by
  unfold weight?
  cases hindex : standInIndex? tag attributes with
  | none => rfl
  | some index =>
    rw [Option.bind_some]
    split
    · rfl
    · next hfresh =>
      have hlength : weights.length ≤ index := Nat.le_of_not_lt fun hlt ↦
        hfresh (hkeep index hindex hlt)
      simp [hlength]

mutual

/-- The height of a node in which the pieces that are left, of the given heights, are grafted, and
the indices of the pieces that are then in place. -/
def graftedHeight (weights : List Nat) (placed : List Nat) : Node → Nat × List Nat
  | .element tag attributes children =>
    match weight? weights placed tag attributes with
    | some (index, weight) => (weight, index :: placed)
    | none =>
      let (height, placed) := graftedHeights weights placed children
      (height + 1, placed)
  | .root children => graftedHeights weights placed children
  | .text _ => (0, placed)

/-- The height of a list in which pieces are grafted. -/
def graftedHeights (weights : List Nat) (placed : List Nat) : List Node → Nat × List Nat
  | [] => (0, placed)
  | node :: rest =>
    let (height, placed) := graftedHeight weights placed node
    let (heights, placed) := graftedHeights weights placed rest
    (max height heights, placed)

end

mutual

theorem Grafted.graftedHeight_eq {pieces : List Node} {placed placed' : List Nat}
    {node node' : Node} : Grafted pieces placed node node' placed' →
      graftedHeight (pieces.map Node.height) placed node = (node'.height, placed')
  | @Grafted.place _ _ _ _ _ index piece hindex hfresh hpiece => by
    have hheight : (pieces.map Node.height)[index]? = some piece.height := by
      rw [List.getElem?_map, hpiece, Option.map_some]
    simp only [graftedHeight, weight?_of_place hindex hfresh hheight]
  | .element hkeep hchildren => by
    rw [← List.length_map Node.height] at hkeep
    simp only [graftedHeight, weight?_of_keep hkeep, GraftedAll.graftedHeights_eq hchildren,
      Node.height]
  | .root hchildren => by
    simp only [graftedHeight, GraftedAll.graftedHeights_eq hchildren, Node.height]
  | .text => by
    simp only [graftedHeight, Node.height]

/-- The height of a grafted forest depends on the heights of the pieces alone. -/
theorem GraftedAll.graftedHeights_eq {pieces : List Node} {placed placed' : List Nat}
    {nodes nodes' : List Node} : GraftedAll pieces placed nodes nodes' placed' →
      graftedHeights (pieces.map Node.height) placed nodes = (Node.heights nodes', placed')
  | .nil => by
    simp only [graftedHeights, Node.heights]
  | .cons hnode hrest => by
    simp only [graftedHeights, Grafted.graftedHeight_eq hnode,
      GraftedAll.graftedHeights_eq hrest, Node.heights]

end

/-! ## Lowered drafts -/

/-- The height of settled siblings, of which the elements have the given heights. -/
def settledHeight (limit : Nat) (drafts : List Draft) (weights : List Nat) : Nat :=
  if drafts.any isRaw then
    match Html.compileFragment limit (String.ofList (fragment 0 drafts)) with
    | .ok parsed => (graftedHeights weights [] parsed).1
    | .error _ => 0
  else weights.foldr max 0

mutual

/-- The height that a draft has when it is lowered: its own level, and below it what its children
settle to. -/
def nesting (limit : Nat) : Draft → Nat
  | .element _ _ children => settledHeight limit children (nestings limit children) + 1
  | .text _ => 0
  | .raw _ => 0

/-- The heights that the elements of a list have when they are lowered. -/
def nestings (limit : Nat) : List Draft → List Nat
  | [] => []
  | draft :: rest =>
    if draft.isElement then nesting limit draft :: nestings limit rest else nestings limit rest

end

/-- The height that a list of siblings has when it is lowered. -/
def nestingAll (limit : Nat) (drafts : List Draft) : Nat :=
  settledHeight limit drafts (nestings limit drafts)

/-- Among lowered siblings without raw markup only the elements have a height. -/
theorem heights_eq_foldr_pieces {limit : Nat} {drafts : List Draft} {nodes : List Node}
    (h : List.Forall₂ (Lowered limit) drafts nodes) :
    Node.heights nodes = ((pieces drafts nodes).map Node.height).foldr max 0 := by
  induction h with
  | nil => rfl
  | @cons draft node rest nodes hnode hrest ih =>
    cases hnode with
    | text => simp [pieces, isElement, Node.heights, Node.height, ih]
    | element hchildren => simp [pieces, isElement, Node.heights, ih]

theorem heights_of_loweredAll_of_nestings {limit : Nat} {drafts : List Draft}
    {nodes : List Node} (h : LoweredAll limit drafts nodes)
    (hnestings : ∀ found, List.Forall₂ (Lowered limit) (drafts.filter isElement) found →
      nestings limit drafts = found.map Node.height) :
    Node.heights nodes = nestingAll limit drafts := by
  unfold nestingAll settledHeight
  cases h with
  | plain hplain hrelated =>
    have hany : drafts.any isRaw = false := by simpa using hplain
    rw [hany, if_neg Bool.false_ne_true, hnestings _ (forall₂_pieces hrelated)]
    exact heights_eq_foldr_pieces hrelated
  | mixed hraw hfound hparsed hgrafted _ =>
    have hany : drafts.any isRaw = true := by simpa using hraw
    rw [if_pos hany, hparsed, hnestings _ hfound]
    simp only [hgrafted.graftedHeights_eq]

mutual

theorem height_of_lowered {limit : Nat} :
    ∀ draft node, Lowered limit draft node → node.height = nesting limit draft
  | .raw markup, _, h => by cases h
  | .text value, _, h => by
    cases h
    rfl
  | .element tag attributes children, _, h => by
    cases h with
    | element hchildren =>
      rw [Node.height, nesting]
      congr 1
      exact heights_of_loweredAll_of_nestings hchildren (nestings_eq children)

theorem nestings_eq {limit : Nat} :
    ∀ drafts found, List.Forall₂ (Lowered limit) (drafts.filter isElement) found →
      nestings limit drafts = found.map Node.height
  | [], found, h => by
    cases h
    rfl
  | draft :: rest, found, h => by
    by_cases helement : draft.isElement
    · rw [List.filter_cons_of_pos helement] at h
      cases h with
      | cons hnode hrest =>
        rw [nestings, if_pos helement, List.map_cons, nestings_eq rest _ hrest,
          height_of_lowered draft _ hnode]
    · rw [List.filter_cons_of_neg helement] at h
      rw [nestings, if_neg helement, nestings_eq rest _ h]

end

/-- The height of lowered drafts. -/
theorem heights_of_loweredAll {limit : Nat} {drafts : List Draft} {nodes : List Node}
    (h : LoweredAll limit drafts nodes) : Node.heights nodes = nestingAll limit drafts :=
  heights_of_loweredAll_of_nestings h (nestings_eq drafts)

/-! ## Drafts without raw markup -/

mutual

/-- Is a draft raw markup, or is there any below it? -/
def hasRaw : Draft → Bool
  | .element _ _ children => haveRaw children
  | .text _ => false
  | .raw _ => true

/-- Is there raw markup anywhere in a list of drafts? -/
def haveRaw : List Draft → Bool
  | [] => false
  | draft :: rest => draft.hasRaw || haveRaw rest

end

theorem any_isRaw_of_haveRaw_eq_false {drafts : List Draft} (h : haveRaw drafts = false) :
    drafts.any isRaw = false := by
  induction drafts with
  | nil => rfl
  | cons draft rest ih =>
    rw [haveRaw, Bool.or_eq_false_iff] at h
    rw [List.any_cons, ih h.2, Bool.or_false]
    cases draft with
    | element tag attributes children => rfl
    | text value => rfl
    | raw markup => cases h.1

theorem settledHeight_of_haveRaw_eq_false {limit : Nat} {drafts : List Draft}
    (h : haveRaw drafts = false) (weights : List Nat) :
    settledHeight limit drafts weights = weights.foldr max 0 := by
  rw [settledHeight, any_isRaw_of_haveRaw_eq_false h, if_neg Bool.false_ne_true]

mutual

theorem nesting_of_hasRaw_eq_false {limit : Nat} :
    ∀ draft : Draft, draft.hasRaw = false → nesting limit draft = draft.height
  | .text value, _ => rfl
  | .raw markup, h => by cases h
  | .element tag attributes children, h => by
    rw [hasRaw] at h
    rw [nesting, height, settledHeight_of_haveRaw_eq_false h,
      foldr_nestings_of_haveRaw_eq_false children h]

theorem foldr_nestings_of_haveRaw_eq_false {limit : Nat} :
    ∀ drafts, haveRaw drafts = false → (nestings limit drafts).foldr max 0 = heights drafts
  | [], _ => rfl
  | draft :: rest, h => by
    rw [haveRaw, Bool.or_eq_false_iff] at h
    have hdraft : nesting limit draft = draft.height := nesting_of_hasRaw_eq_false draft h.1
    have hrest : (nestings limit rest).foldr max 0 = heights rest :=
      foldr_nestings_of_haveRaw_eq_false rest h.2
    cases draft with
    | element tag attributes children =>
      rw [nestings, isElement, if_pos rfl, List.foldr_cons, hdraft, hrest, heights]
    | text value =>
      have hplain : ¬(text value).isElement = true := Bool.false_ne_true
      rw [nestings, if_neg hplain, hrest, heights, height, Nat.zero_max]
    | raw markup => cases h.1

end

/-- Without raw markup lowering keeps the height of the drafts. -/
theorem nestingAll_of_haveRaw_eq_false (limit : Nat) {drafts : List Draft}
    (h : haveRaw drafts = false) : nestingAll limit drafts = heights drafts := by
  rw [nestingAll, settledHeight_of_haveRaw_eq_false h, foldr_nestings_of_haveRaw_eq_false drafts h]

/-! ## A bound -/

theorem weight_le_of_weight? {weights placed : List Nat} {tag : String} {attributes : Attributes}
    {index weight bound : Nat} (hbound : ∀ weight ∈ weights, weight ≤ bound)
    (h : weight? weights placed tag attributes = some (index, weight)) : weight ≤ bound := by
  unfold weight? at h
  obtain ⟨found, -, h⟩ := Option.bind_eq_some_iff.1 h
  split at h
  · cases h
  · obtain ⟨_, hweight, hpair⟩ := Option.map_eq_some_iff.1 h
    cases hpair
    exact hbound _ (List.mem_of_getElem? hweight)

mutual

theorem graftedHeight_le {weights : List Nat} {bound : Nat}
    (hbound : ∀ weight ∈ weights, weight ≤ bound + 1) :
    ∀ placed node, (graftedHeight weights placed node).1 ≤ node.height + bound
  | placed, .text value => Nat.zero_le _
  | placed, .root children => by
    rw [graftedHeight, Node.height]
    exact graftedHeights_le hbound placed children
  | placed, .element tag attributes children => by
    have hchildren := graftedHeights_le hbound placed children
    simp only [graftedHeight, Node.height]
    cases hweight : weight? weights placed tag attributes with
    | none => simp only; omega
    | some found =>
      have hle := weight_le_of_weight? hbound hweight
      simp only
      omega

/-- Grafting adds less than the greatest height of a piece. -/
theorem graftedHeights_le {weights : List Nat} {bound : Nat}
    (hbound : ∀ weight ∈ weights, weight ≤ bound + 1) :
    ∀ placed nodes, (graftedHeights weights placed nodes).1 ≤ Node.heights nodes + bound
  | placed, [] => Nat.zero_le _
  | placed, node :: rest => by
    have hnode := graftedHeight_le hbound placed node
    have hrest := graftedHeights_le hbound (graftedHeight weights placed node).2 rest
    simp only [graftedHeights, Node.heights]
    omega

end

theorem foldr_max_le {weights : List Nat} {bound : Nat}
    (hbound : ∀ weight ∈ weights, weight ≤ bound) : weights.foldr max 0 ≤ bound := by
  induction weights with
  | nil => exact Nat.zero_le _
  | cons weight rest ih =>
    have hrest := ih fun other hmem ↦ hbound other (List.mem_cons_of_mem _ hmem)
    exact Nat.max_le.2 ⟨hbound weight List.mem_cons_self, hrest⟩

theorem settledHeight_le {limit bound : Nat} (hlimit : 1 ≤ limit) (drafts : List Draft)
    {weights : List Nat} (hbound : ∀ weight ∈ weights, weight ≤ bound + 1) :
    settledHeight limit drafts weights ≤ limit + bound := by
  unfold settledHeight
  split
  · cases hparsed : Html.compileFragment limit (String.ofList (fragment 0 drafts)) with
    | error error => exact Nat.zero_le _
    | ok parsed =>
      have hheight := Html.heights_compileFragment_le hparsed
      have hgrafted := graftedHeights_le hbound [] parsed
      simp only
      omega
  · have hmax := foldr_max_le hbound
    omega

mutual

theorem nesting_le {limit : Nat} (hlimit : 1 ≤ limit) :
    ∀ draft, nesting limit draft ≤ limit * draft.height + 1
  | .text value => Nat.zero_le _
  | .raw markup => Nat.zero_le _
  | .element tag attributes children => by
    have hchildren := settledHeight_le hlimit children (nestings_le hlimit children)
    rw [nesting, height]
    calc
      settledHeight limit children (nestings limit children) + 1 ≤
          limit + limit * heights children + 1 := Nat.add_le_add_right hchildren 1
      _ = limit * (heights children + 1) + 1 := by ring

theorem nestings_le {limit : Nat} (hlimit : 1 ≤ limit) :
    ∀ drafts, ∀ weight ∈ nestings limit drafts, weight ≤ limit * heights drafts + 1
  | [] => by simp [nestings]
  | draft :: rest => by
    have hdraft := nesting_le hlimit draft
    have hrest := nestings_le hlimit rest
    have hleft : limit * draft.height ≤ limit * heights (draft :: rest) :=
      Nat.mul_le_mul_left limit (Nat.le_max_left _ _)
    have hright : limit * heights rest ≤ limit * heights (draft :: rest) :=
      Nat.mul_le_mul_left limit (Nat.le_max_right _ _)
    intro weight hmem
    rw [nestings] at hmem
    split at hmem
    · rcases List.mem_cons.1 hmem with rfl | hmem
      · omega
      · have h := hrest weight hmem
        omega
    · have h := hrest weight hmem
      omega

end

/-- Each level of the drafts may add the height of one fragment. -/
theorem nestingAll_le {limit : Nat} (hlimit : 1 ≤ limit) (drafts : List Draft) :
    nestingAll limit drafts ≤ limit * (heights drafts + 1) := by
  have h := settledHeight_le hlimit drafts (nestings_le hlimit drafts)
  unfold nestingAll
  calc
    settledHeight limit drafts (nestings limit drafts) ≤ limit + limit * heights drafts := h
    _ = limit * (heights drafts + 1) := by ring

end Draft

end NotebookTree
