import NotebookTree.Node.Markup

/-!
# Markup without roots

`Node.splicedAll` puts the children of each root in its place. Roots have no markup of their own,
but a text below a root is escaped in any case. So the markup stays the same exactly if no text that
a root sets apart from a `script` or a `style` has a character to escape:
`Node.renderHtml_splicedAll_iff`.
-/

namespace NotebookTree.Node

mutual

/-- The nodes that take the place of a node when roots give way to their children. -/
def spliced : Node → List Node
  | root nodes => splicedAll nodes
  | element tag attributes nodes => [element tag attributes (splicedAll nodes)]
  | text value => [text value]

/-- The nodes of a list, with the children of roots in place of these. -/
def splicedAll : List Node → List Node
  | [] => []
  | node :: rest => spliced node ++ splicedAll rest

end

mutual

/-- Is a node no root, with none below it? -/
def isRootless : Node → Bool
  | root _ => false
  | element _ _ nodes => areRootless nodes
  | text _ => true

/-- Is there no root among or below the nodes of a list? -/
def areRootless : List Node → Bool
  | [] => true
  | node :: rest => isRootless node && areRootless rest

end

/-- Does a character stand for itself in escaped text? -/
def isUnescaped (c : Char) : Bool := c ∉ ['&', '<', '>']

mutual

/-- Is a node written as it is without roots? The marks say that the element around it holds raw
text, and that a root stands between. What is below a void element is not written. -/
def isWrittenAlike (rawText inRoot : Bool) : Node → Bool
  | root nodes => areWrittenAlike rawText true nodes
  | text value => !(rawText && inRoot) || value.toList.all isUnescaped
  | element tag _ nodes => tag ∈ voidTags || areWrittenAlike (tag ∈ rawTextTags) false nodes

/-- Are all nodes of a list written as they are without roots? -/
def areWrittenAlike (rawText inRoot : Bool) : List Node → Bool
  | [] => true
  | node :: rest => isWrittenAlike rawText inRoot node && areWrittenAlike rawText inRoot rest

end

/-! ## No roots are left -/

theorem areRootless_append (first second : List Node) :
    areRootless (first ++ second) = (areRootless first && areRootless second) := by
  induction first with
  | nil => rfl
  | cons node rest ih => rw [List.cons_append, areRootless, areRootless, ih, Bool.and_assoc]

mutual

theorem areRootless_spliced : ∀ node : Node, areRootless (spliced node) = true
  | root nodes => by
    rw [spliced]
    exact areRootless_splicedAll nodes
  | element tag attributes nodes => by
    rw [spliced, areRootless, isRootless, areRootless_splicedAll nodes]
    rfl
  | text value => rfl

theorem areRootless_splicedAll : ∀ nodes : List Node, areRootless (splicedAll nodes) = true
  | [] => rfl
  | node :: rest => by
    rw [splicedAll, areRootless_append, areRootless_spliced node, areRootless_splicedAll rest]
    rfl

end

/-! ## Markup with and without roots -/

/-- The second text is the first, or else it is longer. -/
inductive IsSameOrLonger : Bool → List Char → List Char → Prop where
  | same (text : List Char) : IsSameOrLonger true text text
  | longer {first second : List Char} (h : first.length < second.length) :
    IsSameOrLonger false first second

namespace IsSameOrLonger

variable {same same' : Bool} {first second first' second' : List Char}

theorem eq_iff (h : IsSameOrLonger same first second) : first = second ↔ same = true := by
  cases h with
  | same => exact iff_of_true rfl rfl
  | longer h => exact iff_of_false (fun heq ↦ Nat.ne_of_lt h (congrArg List.length heq)) nofun

theorem length_le (h : IsSameOrLonger same first second) : first.length ≤ second.length := by
  cases h with
  | same => exact Nat.le_refl _
  | longer h => exact Nat.le_of_lt h

theorem append (h : IsSameOrLonger same first second) (h' : IsSameOrLonger same' first' second') :
    IsSameOrLonger (same && same') (first ++ first') (second ++ second') := by
  cases h with
  | longer hlt =>
    refine .longer ?_
    rw [List.length_append, List.length_append]
    exact Nat.add_lt_add_of_lt_of_le hlt h'.length_le
  | same text =>
    cases h' with
    | same text' => exact .same _
    | longer hlt =>
      refine .longer ?_
      rw [List.length_append, List.length_append]
      exact Nat.add_lt_add_left hlt _

end IsSameOrLonger

theorem isSameOrLonger_escapedTextChar (c : Char) :
    IsSameOrLonger (isUnescaped c) [c] (escapedTextChar c) := by
  have hlonger {reference : List Char} (hlength : 1 < reference.length)
      (hc : isUnescaped c = false) : IsSameOrLonger (isUnescaped c) [c] reference := by
    rw [hc]
    exact .longer hlength
  unfold escapedTextChar
  split
  · next hc => exact hlonger (by decide) (by rw [hc]; rfl)
  · split
    · next hc => exact hlonger (by decide) (by rw [hc]; rfl)
    · split
      · next hc => exact hlonger (by decide) (by rw [hc]; rfl)
      · next hamp hless hgreater =>
        have hc : isUnescaped c = true := by simp [isUnescaped, hamp, hless, hgreater]
        rw [hc]
        exact .same _

/-- Each character that is escaped makes a text longer. -/
theorem isSameOrLonger_escapeText (value : List Char) :
    IsSameOrLonger (value.all isUnescaped) value (escapeText value) := by
  induction value with
  | nil => exact .same []
  | cons c rest ih => exact (isSameOrLonger_escapedTextChar c).append ih

theorem markups_append (rawText : Bool) (first second : List Node) :
    markups rawText (first ++ second) = markups rawText first ++ markups rawText second := by
  induction first with
  | nil => rfl
  | cons node rest ih => rw [List.cons_append, markups, markups, ih, List.append_assoc]

mutual

theorem isSameOrLonger_markup : ∀ (rawText inRoot : Bool) (node : Node),
    IsSameOrLonger (isWrittenAlike rawText inRoot node) (markups rawText (spliced node))
      (markup (rawText && !inRoot) node)
  | rawText, inRoot, root nodes => by
    have hnodes := isSameOrLonger_markups rawText true nodes
    rw [Bool.not_true, Bool.and_false] at hnodes
    rwa [isWrittenAlike, spliced, markup]
  | rawText, inRoot, text value => by
    rw [isWrittenAlike, spliced, markups, markups, markup, markup, List.append_nil]
    cases rawText with
    | false => exact .same _
    | true =>
      cases inRoot with
      | false => exact .same _
      | true => exact isSameOrLonger_escapeText value.toList
  | rawText, inRoot, element tag attributes nodes => by
    rw [isWrittenAlike, spliced, markups, markups, markup, markup, List.append_nil]
    by_cases hvoid : tag ∈ voidTags
    · rw [if_pos hvoid, if_pos hvoid, decide_eq_true hvoid, Bool.true_or]
      exact .same _
    · have hnodes := isSameOrLonger_markups (tag ∈ rawTextTags) false nodes
      rw [Bool.not_false, Bool.and_true] at hnodes
      have hwhole := ((IsSameOrLonger.same (openTag tag attributes)).append hnodes).append
        (.same (closeTag tag))
      rw [Bool.true_and, Bool.and_true] at hwhole
      rwa [if_neg hvoid, if_neg hvoid, decide_eq_false hvoid, Bool.false_or]

/-- Only texts that are escaped below a root differ, and they are longer there. -/
theorem isSameOrLonger_markups : ∀ (rawText inRoot : Bool) (nodes : List Node),
    IsSameOrLonger (areWrittenAlike rawText inRoot nodes) (markups rawText (splicedAll nodes))
      (markups (rawText && !inRoot) nodes)
  | _, _, [] => .same []
  | rawText, inRoot, node :: rest => by
    rw [areWrittenAlike, splicedAll, markups_append, markups]
    exact (isSameOrLonger_markup rawText inRoot node).append
      (isSameOrLonger_markups rawText inRoot rest)

end

/-- Nodes are written as the nodes without roots, exactly if no text that roots set apart from a
`script` or a `style` has a character to escape. -/
theorem renderHtml_splicedAll_iff (nodes : List Node) :
    areRootless (splicedAll nodes) = true ∧
      (renderHtml (splicedAll nodes) = renderHtml nodes ↔
        areWrittenAlike false false nodes = true) := by
  refine ⟨areRootless_splicedAll nodes, ?_⟩
  rw [renderHtml, renderHtml, String.ofList_inj]
  exact (isSameOrLonger_markups false false nodes).eq_iff

/-- Roots are not transparent in a script: a comparison is escaped below a root. -/
theorem not_renderHtml_splicedAll :
    ¬∀ nodes : List Node, renderHtml (splicedAll nodes) = renderHtml nodes := by
  intro h
  have hscript := h [ofTag "script" |>.withChildren [root [text "1 < 2"]]]
  exact absurd hscript (by decide)

end NotebookTree.Node
