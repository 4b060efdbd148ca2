import NotebookTree.Proofs.Html.Lowering
import NotebookTree.Proofs.Html.StandIn
import NotebookTree.Proofs.Outcome

/-!
# Marks of a compiled fragment

A fragment is read part by part: escaped texts and tags that a steady builder accepts. If the
builder is steady at the end, the nodes that the fragment compiles to have the marks of its tree.
-/

namespace NotebookTree

open Outcome

namespace Node

section Definitions

variable (w : Html.Watch)

mutual

/-- The marks of a node in document order. What is inside a leaf has none. -/
def marks : Node → List Mark
  | text value => value.toList.map .char
  | root children => marksAll children
  | element tag attributes children =>
    if w.isLeaf tag then [.standIn (Draft.standInIndex? tag attributes)] else marksAll children

/-- The marks of nodes one after the other. -/
def marksAll : List Node → List Mark
  | [] => []
  | node :: rest => marks node ++ marksAll rest

end

end Definitions

variable {w : Html.Watch}

theorem marksAll_append (first second : List Node) :
    marksAll w (first ++ second) = marksAll w first ++ marksAll w second := by
  induction first with
  | nil => rfl
  | cons node rest ih => rw [List.cons_append, marksAll, marksAll, ih, List.append_assoc]

theorem marksAll_singleton (node : Node) : marksAll w [node] = node.marks w := by
  rw [marksAll, marksAll, List.append_nil]

end Node

namespace Html

/-! ## Reading part by part -/

namespace Builder

variable {w : Watch} {mode : Mode} {ms : List Mark} {b : Builder}

/-- The next part of a text is read in one step. -/
theorem exists_readAll_eq_of_read {cs rest : List Char} {tokens : List Token} (hne : cs ≠ [])
    (hread : Token.read b.reading (b.current.name.vocabulary != .html) (cs ++ rest) =
      (tokens, rest)) {limit : Nat} (hlimit : (cs ++ rest).length < limit) :
    ∃ limit', rest.length < limit' ∧
      b.readAll limit (cs ++ rest) = (tokens.foldl Builder.accept b).readAll limit' rest := by
  obtain ⟨c, more, rfl⟩ := List.exists_cons_of_ne_nil hne
  rw [List.length_append, List.length_cons] at hlimit
  cases limit with
  | zero => exact absurd hlimit (Nat.not_lt_zero _)
  | succ limit =>
    refine ⟨limit, by omega, ?_⟩
    rw [List.cons_append] at hread ⊢
    rw [readAll, hread]
    exact List.cons_ne_nil _ _

theorem exists_readAll_eq (h : b.reading = .markup) {cs rest : List Char} {tokens : List Token}
    (hne : cs ≠ [])
    (hread : ∀ foreign, Token.readMarkup foreign (cs ++ rest) = (tokens, rest)) {limit : Nat}
    (hlimit : (cs ++ rest).length < limit) :
    ∃ limit', rest.length < limit' ∧
      b.readAll limit (cs ++ rest) = (tokens.foldl Builder.accept b).readAll limit' rest := by
  refine exists_readAll_eq_of_read hne ?_ hlimit
  rw [h, Token.read, hread]

/-- An escaped text is read in one step, or none if it is empty. -/
theorem Steady.exists_readAll_escapeText (h : b.Steady w mode ms) {text rest : List Char}
    (hmode : mode.TreatsAsBody (.characters text)) (hnull : '\x00' ∉ text)
    (hrest : rest = [] ∨ ∃ more, rest = '<' :: more) {limit : Nat}
    (hlimit : (Node.escapeText text ++ rest).length < limit) :
    ∃ (limit' : Nat) (b' : Builder), rest.length < limit' ∧
      b'.Steady w mode (ms ++ text.map .char) ∧
      b.readAll limit (Node.escapeText text ++ rest) = b'.readAll limit' rest := by
  cases text with
  | nil => exact ⟨limit, b, hlimit, by simpa using h, rfl⟩
  | cons c more =>
    have hne : c :: more ≠ [] := List.cons_ne_nil _ _
    obtain ⟨limit', hlimit', hread⟩ := exists_readAll_eq h.reading_eq (Token.escapeText_ne_nil hne)
      (fun foreign ↦ Token.readMarkup_escapeText foreign hne hnull hrest) hlimit
    exact ⟨limit', _, hlimit', h.accept_characters hmode, hread⟩

/-- A tag is read in one step. -/
theorem exists_readAll_tag (h : b.reading = .markup) {token : Token} {cs rest : List Char}
    (htag : Token.Written token cs) {limit : Nat} (hlimit : (cs ++ rest).length < limit) :
    ∃ limit', rest.length < limit' ∧
      b.readAll limit (cs ++ rest) = (b.accept token).readAll limit' rest := by
  have hne : cs ≠ [] := by
    obtain ⟨more, rfl⟩ := htag.exists_eq_cons
    exact List.cons_ne_nil _ _
  exact exists_readAll_eq h hne (fun foreign ↦ htag.readMarkup_append foreign rest) hlimit

/-- A tag is read after the text that is waiting before it. -/
theorem Steady.exists_readAll_escapeText_tag (h : b.Steady w mode ms) {text cs rest : List Char}
    {token : Token} (hmode : mode.TreatsAsBody (.characters text)) (hnull : '\x00' ∉ text)
    (htag : Token.Written token cs) {limit : Nat}
    (hlimit : (Node.escapeText text ++ (cs ++ rest)).length < limit) :
    ∃ (limit' : Nat) (b' : Builder), rest.length < limit' ∧
      b'.Steady w mode (ms ++ text.map .char) ∧
      b.readAll limit (Node.escapeText text ++ (cs ++ rest)) =
        (b'.accept token).readAll limit' rest := by
  obtain ⟨more, hcs⟩ := htag.exists_eq_cons
  obtain ⟨limit', b', hlimit', hsteady, hread⟩ :=
    h.exists_readAll_escapeText hmode hnull (.inr ⟨more ++ rest, congrArg (· ++ rest) hcs⟩) hlimit
  obtain ⟨limit'', hlimit'', hread'⟩ := exists_readAll_tag hsteady.reading_eq htag hlimit'
  exact ⟨limit'', b', hlimit'', hsteady, hread.trans hread'⟩

theorem spine_empty : empty.tree.spine w = [0] := by
  rw [empty, Dom.spine, if_neg (w.not_isLeaf (by decide)), Dom.spineFirst]

/-- The builder of an empty fragment has no marks. -/
theorem steady_empty : empty.Steady w .body [] where
  marks_eq := by rw [empty, Dom.marks, if_neg (w.not_isLeaf (by decide)), Dom.marksAll]
  root := ⟨[], spine_empty⟩
  nodup_spine := by simp [spine_empty]
  lt_nextId := by
    rw [spine_empty]
    decide
  openIds_sublist := by
    rw [spine_empty]
    exact List.Sublist.refl _
  stack_isPlain := by
    simpa [empty] using ElementName.isPlain_html (by decide) (by decide)
  formatting_isPlain := by simp [empty]
  mode_eq := rfl
  reading_eq := rfl
  fostering_eq := rfl
  dropLineFeed_eq := rfl

end Builder

/-! ## Compiling -/

variable {w : Watch}

mutual

theorem marksAll_of_lowerNode_finish {limit : Nat} :
    ∀ (tree : Dom) {depth : Nat} {nodes : List Node},
      lowerNode limit depth tree.finish = .ok nodes → Node.marksAll w nodes = tree.marks w
  | .text value, depth, nodes, h => by
    cases h
    rw [Node.marksAll_singleton, Node.marks, Dom.marks, String.toList_ofList]
  | .comment, depth, nodes, h => by
    cases h
    rfl
  | .contents id children, depth, nodes, h => by
    cases h
    rfl
  | .element id name attributes children, depth, nodes, h => by
    rw [Dom.finish, lowerNode] at h
    split at h
    · cases h
    · obtain ⟨lowered, hlowered, hnodes⟩ := bind_eq_ok.1 h
      cases hnodes
      obtain ⟨first, rest, rfl, hmarks, hrest⟩ := exists_of_lowerNodes_finishAll children hlowered
      cases hrest
      rw [Node.marksAll_singleton, Node.marks, Dom.marks, List.append_nil, hmarks]

/-- Lowering the finished trees of a list keeps their marks. -/
theorem exists_of_lowerNodes_finishAll {limit : Nat} :
    ∀ (trees : List Dom) {depth : Nat} {after : List HtmlNode} {nodes : List Node},
      lowerNodes limit depth (Dom.finishAll trees after) = .ok nodes →
        ∃ first rest, nodes = first ++ rest ∧ Node.marksAll w first = Dom.marksAll w trees ∧
          lowerNodes limit depth after = .ok rest
  | [], depth, after, nodes, h => ⟨[], nodes, rfl, rfl, h⟩
  | tree :: older, depth, after, nodes, h => by
    rw [Dom.finishAll] at h
    obtain ⟨first, rest, rfl, hfirst, hrest⟩ := exists_of_lowerNodes_finishAll older h
    rw [lowerNodes] at hrest
    obtain ⟨lowered, hlowered, hmore⟩ := bind_eq_ok.1 hrest
    obtain ⟨others, hothers, hnodes⟩ := bind_eq_ok.1 hmore
    cases hnodes
    refine ⟨first ++ lowered, others, (List.append_assoc _ _ _).symm, ?_, hothers⟩
    rw [Node.marksAll_append, Dom.marksAll, hfirst, marksAll_of_lowerNode_finish tree hlowered]

end

theorem parseFragment_ofList {cs : List Char} (hmark : cs.head? ≠ some '\ufeff') :
    parseFragment (String.ofList cs) =
      match ((Builder.empty.readAll ((normalizeLineEnds cs).length + 1)
        (normalizeLineEnds cs)).atEnd).tree.finish with
      | .element _ _ children => children
      | other => [other] := by
  unfold parseFragment
  rw [String.toList_ofList]
  cases cs with
  | nil => rfl
  | cons c rest =>
    split
    · next heq =>
      cases heq
      exact absurd rfl hmark
    · rfl

/-- A fragment that leads to a steady builder compiles to nodes with the marks of its tree. -/
theorem marksAll_of_compileFragment {limit : Nat} {cs : List Char} {nodes : List Node}
    {ms : List Mark} (hmark : cs.head? ≠ some '\ufeff')
    (hsteady : (Builder.empty.readAll ((normalizeLineEnds cs).length + 1)
      (normalizeLineEnds cs)).Steady w .body ms)
    (h : compileFragment limit (String.ofList cs) = .ok nodes) : Node.marksAll w nodes = ms := by
  rw [compileFragment_eq, parseFragment_ofList hmark] at h
  generalize Builder.empty.readAll ((normalizeLineEnds cs).length + 1) (normalizeLineEnds cs) = b
    at h hsteady
  have hend : b.atEnd = b := by
    rw [Builder.atEnd, hsteady.mode_eq]
    rfl
  obtain ⟨ids, hroot⟩ := hsteady.root
  obtain ⟨name, attributes, children, htree, hname, -⟩ := Dom.exists_of_spine_eq_cons hroot
  have hmarks := hsteady.marks_eq
  rw [htree, Dom.marks, if_neg hname] at hmarks
  rw [hend, htree, Dom.finish] at h
  obtain ⟨first, rest, rfl, hfirst, hrest⟩ := exists_of_lowerNodes_finishAll children h
  cases hrest
  rw [List.append_nil, hfirst, hmarks]

end Html

end NotebookTree
