import NotebookTree.Proofs.Html.RoundTrip
import NotebookTree.Proofs.Notebook.Isolation

/-!
# Code cells read back

The tree of a notebook without prose and without markup in its outputs consists of containers and of
texts that are taken over as they are. `Notebook.compileFragment_renderHtml_walk` says that the HTML
of such a tree compiles to the same tree, but for empty texts.
-/

namespace NotebookTree

/-- Does an output have no markup, and a plain text without carriage returns and null characters? -/
def Output.IsPlain (o : Output) : Prop :=
  o.mimeText mimeHtml = "" ∧ Node.isKept (o.mimeText mimePlain).toList = true

/-- Is it no prose cell, and does it hold no markup, no carriage returns and no null characters? -/
def Cell.IsPlain : Cell → Prop
  | markdown _ => False
  | code source outputs =>
    Node.isKept (source.join "\n").toList = true ∧ ∀ output ∈ outputs, output.IsPlain
  | other => True

namespace Node

theorem heights_le_of_forall {nodes : List Node} {bound : Nat}
    (h : ∀ node ∈ nodes, height node ≤ bound) : heights nodes ≤ bound := by
  induction nodes with
  | nil => exact Nat.zero_le _
  | cons node rest ih =>
    obtain ⟨hnode, hrest⟩ := List.forall_mem_cons.1 h
    exact Nat.max_le.2 ⟨hnode, ih hrest⟩

theorem readAllBack_of_forall {nodes : List Node} {textBarred : Bool}
    (h : ∀ node ∈ nodes, readsBack node = true ∧ isText node = false) :
    readAllBack textBarred nodes = true := by
  induction nodes generalizing textBarred with
  | nil => rfl
  | cons node rest ih =>
    obtain ⟨⟨hnode, htext⟩, hrest⟩ := List.forall_mem_cons.1 h
    rw [readAllBack, hnode, htext, ih hrest, Bool.and_false]
    rfl

theorem readsBack_ofClass {name : String} {children : List Node}
    (hattributes : Html.Token.readsBack (.insert .empty "class" name) = true)
    (hopen : isKept (openTag "div" (.insert .empty "class" name)) = true)
    (hchildren : readAllBack false children = true) :
    readsBack (Container.ofClass name children) = true := by
  show (_ && Html.Token.readsBack (.insert .empty "class" name) &&
    isKept (openTag "div" (.insert .empty "class" name)) && readAllBack false children) = true
  rw [hattributes, hopen, hchildren]
  decide

theorem readsBack_codeSource {source : String} (h : isKept source.toList = true) :
    readsBack (Container.codeSource source) = true := by
  have hcode : readsBack ((ofTag "code").withChildren [.text source]) = true := by
    simp only [ofTag, withChildren, readsBack, readAllBack, isText, h]
    decide
  have hpre : readsBack ((ofTag "pre").withChildren
      [(ofTag "code").withChildren [.text source]]) = true := by
    rw [ofTag, withChildren, readsBack, readAllBack_of_forall]
    · decide
    · simpa using ⟨hcode, rfl⟩
  refine readsBack_ofClass (by decide) (by decide) (readAllBack_of_forall ?_)
  simpa using ⟨hpre, rfl⟩

theorem readsBack_output {plain : String} (h : isKept plain.toList = true) :
    readsBack (Container.output [] plain) = true := by
  have hmarkup : readsBack (Container.ofClass "text html" []) = true :=
    readsBack_ofClass (by decide) (by decide) rfl
  have hplain : readsBack (Container.ofClass "text plain" [.text plain]) = true := by
    refine readsBack_ofClass (by decide) (by decide) ?_
    rw [readAllBack, readsBack, h]
    rfl
  refine readsBack_ofClass (by decide) (by decide) (readAllBack_of_forall ?_)
  simp only [List.forall_mem_cons, List.not_mem_nil, false_implies, implies_true, and_true]
  exact ⟨⟨hmarkup, rfl⟩, ⟨hplain, rfl⟩⟩

end Node

theorem Output.render_of_isPlain (options : CompileOptions) {o : Output} (h : o.IsPlain) :
    o.render options = Container.output [] (o.mimeText mimePlain) := by
  rw [render, h.1]
  rfl

/-- The container of a cell without prose and markup reads back. -/
theorem Cell.readsBack_render (options : CompileOptions) {cell : Cell} (h : cell.IsPlain) :
    Node.readsBack (cell.render options).1 = true ∧ Node.isText (cell.render options).1 = false ∧
      Node.height (cell.render options).1 ≤ 4 := by
  cases cell with
  | markdown source => exact h.elim
  | other => exact ⟨Node.readsBack_ofClass (by decide) (by decide) rfl, rfl, Nat.le_add_left 1 3⟩
  | code source outputs =>
    obtain ⟨hsource, houtputs⟩ := h
    have hparts : ∀ node ∈ Container.codeSource (source.join "\n") ::
        outputs.map (Output.render options),
        (Node.readsBack node = true ∧ Node.isText node = false) ∧ node.height ≤ 3 := by
      refine List.forall_mem_cons.2 ⟨⟨⟨Node.readsBack_codeSource hsource, rfl⟩, Nat.le_refl _⟩, ?_⟩
      rw [List.forall_mem_map]
      intro output hmem
      have hplain := houtputs output hmem
      rw [Output.render_of_isPlain options hplain]
      exact ⟨⟨Node.readsBack_output hplain.2, rfl⟩, Nat.le_succ 2⟩
    have hheights := Node.heights_le_of_forall fun node hmem ↦ (hparts node hmem).2
    refine ⟨Node.readsBack_ofClass (by decide) (by decide)
      (Node.readAllBack_of_forall fun node hmem ↦ (hparts node hmem).1), rfl, ?_⟩
    exact Nat.succ_le_succ hheights

namespace Notebook

/-- The HTML of a notebook without prose, and without markup in its outputs, compiles to its tree
but for empty texts. -/
theorem compileFragment_renderHtml_walk (options : CompileOptions) {notebook : Notebook}
    {limit : Nat} (hcells : ∀ cell ∈ notebook.cells, cell.IsPlain) (hlimit : 4 ≤ limit) :
    Html.compileFragment limit (Node.renderHtml [(notebook.walk options).root]) =
      .ok (Node.dropEmptyTexts (notebook.walk options).root.children) := by
  have hparts : ∀ node ∈ (notebook.walk options).cells,
      Node.readsBack node = true ∧ Node.isText node = false ∧ node.height ≤ 4 := by
    rw [show (notebook.walk options).cells = _ from cells_walk options notebook.cells,
      List.forall_mem_map]
    exact fun cell hmem ↦ cell.readsBack_render options (hcells cell hmem)
  have hreads (textBarred : Bool) :
      Node.readAllBack textBarred (notebook.walk options).cells = true :=
    Node.readAllBack_of_forall fun node hmem ↦ ⟨(hparts node hmem).1, (hparts node hmem).2.1⟩
  have hheights := Node.heights_le_of_forall fun node hmem ↦ (hparts node hmem).2.2
  have hmark : (Node.markups false (notebook.walk options).cells).head? ≠ some '\ufeff' := by
    have hstart := Html.startsTag_markups (hreads true) (.inl rfl)
    rw [List.append_nil] at hstart
    rcases hstart with hnil | ⟨more, hmore⟩
    · simp [hnil]
    · simp [hmore]
  have hroot : Node.renderHtml [(notebook.walk options).root] =
      Node.renderHtml (notebook.walk options).cells := by
    rw [Node.renderHtml, Node.markups, Walk.root, Node.markup, Node.markups, List.append_nil]
    rfl
  rw [hroot, Html.compileFragment_renderHtml (hreads false) (hheights.trans hlimit) hmark]
  rfl

/-- A code cell whose source looks like markup, with one output, and a cell of another kind. -/
def sampleCells : List Cell :=
  [.code ⟨["", "if a < b && b > c: # &lt;pre>"]⟩ [⟨none, [(mimePlain, ⟨["</code>\n"]⟩)]⟩], .other]

theorem compileFragment_renderHtml_walk_sampleCells :
    (∀ cell ∈ sampleCells, cell.IsPlain) ∧
    Html.compileFragment 4 (Node.renderHtml [((⟨sampleCells⟩ : Notebook).walk {}).root]) =
      .ok (Node.dropEmptyTexts ((⟨sampleCells⟩ : Notebook).walk {}).root.children) := by
  have hcells : ∀ cell ∈ sampleCells, cell.IsPlain := by
    simp only [sampleCells, List.forall_mem_cons, List.not_mem_nil, false_implies, implies_true,
      and_true]
    exact ⟨⟨by decide, by simpa [Output.IsPlain] using ⟨by decide, by decide⟩⟩, trivial⟩
  exact ⟨hcells, compileFragment_renderHtml_walk {} hcells (Nat.le_refl 4)⟩

end Notebook

end NotebookTree
