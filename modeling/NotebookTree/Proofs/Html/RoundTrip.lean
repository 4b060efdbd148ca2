import NotebookTree.Proofs.Html.Fragment
import NotebookTree.Proofs.Html.Path
import NotebookTree.Proofs.Prose.Height

/-!
# Containers read back

A tree of containers and texts is written as HTML and read back as it was, but for empty texts.
Texts that stand side by side would be read as one, and a line feed at the start of a `pre` element
would be dropped, so a text may stand neither right after another one nor first in such an element.
-/

namespace NotebookTree

open Html (containerTags)

namespace Node

/-- The elements in which a line feed at the start is dropped. -/
def lineFeedTags : List String := ["pre", "listing"]

/-- Is it a text? -/
def isText : Node → Bool
  | text _ => true
  | _ => false

theorem exists_eq_text {node : Node} (h : node.isText = true) : ∃ value, node = text value := by
  cases node with
  | text value => exact ⟨value, rfl⟩
  | root nodes => cases h
  | element tag attributes nodes => cases h

/-- Does reading keep the characters? It changes line ends, and drops null characters. -/
def isKept (text : List Char) : Bool :=
  text.all fun c ↦ c != '\r' && c != '\x00'

mutual

/-- Is it a text, or a container of nodes, that is read back as it is written? -/
def readsBack : Node → Bool
  | root _ => false
  | text value => isKept value.toList
  | element tag attributes children =>
    tag ∈ containerTags && Html.Token.readsBack attributes && isKept (openTag tag attributes) &&
      readAllBack (tag ∈ lineFeedTags) children

/-- Are the nodes read back as they are written? A barred text may not come first. -/
def readAllBack (textBarred : Bool) : List Node → Bool
  | [] => true
  | node :: rest => readsBack node && !(textBarred && isText node) && readAllBack (isText node) rest

end

mutual

/-- A node without the empty texts in it. -/
def withoutEmptyTexts : Node → List Node
  | text value => if value = "" then [] else [text value]
  | root children => [root (dropEmptyTexts children)]
  | element tag attributes children => [element tag attributes (dropEmptyTexts children)]

/-- Drops the empty texts in and below a list. -/
def dropEmptyTexts : List Node → List Node
  | [] => []
  | node :: rest => withoutEmptyTexts node ++ dropEmptyTexts rest

end

mutual

theorem heights_withoutEmptyTexts : ∀ node : Node, heights (withoutEmptyTexts node) = height node
  | text value => by
    rw [withoutEmptyTexts, height]
    split <;> simp [heights, height]
  | root children => by
    simp only [withoutEmptyTexts, heights, height, heights_dropEmptyTexts children, Nat.max_zero]
  | element tag attributes children => by
    simp only [withoutEmptyTexts, heights, height, heights_dropEmptyTexts children, Nat.max_zero]

/-- Empty texts add nothing to the height. -/
theorem heights_dropEmptyTexts : ∀ nodes : List Node, heights (dropEmptyTexts nodes) = heights nodes
  | [] => rfl
  | node :: rest => by
    rw [dropEmptyTexts, heights_append, heights_withoutEmptyTexts node,
      heights_dropEmptyTexts rest, heights]

end

end Node

namespace Html

/-! ## Finished trees -/

namespace Dom

mutual

/-- The document nodes of a tree. -/
def nodes : Dom → List Node
  | element _ name attributes children =>
    [.element name.name (attributesOf attributes) (nodesAll children)]
  | text value => [.text (String.ofList value)]
  | comment => []
  | contents _ _ => []

/-- The document nodes of a list of trees that has the newest first, in document order. -/
def nodesAll : List Dom → List Node
  | [] => []
  | tree :: older => nodesAll older ++ nodes tree

end

end Dom

mutual

/-- A tree that is not too high is lowered to its nodes. -/
theorem lowerNode_finish {limit : Nat} :
    ∀ (tree : Dom) {depth : Nat}, Node.heights tree.nodes + depth ≤ limit + 1 →
      lowerNode limit depth tree.finish = .ok tree.nodes
  | .text value, depth, h => rfl
  | .comment, depth, h => rfl
  | .contents id children, depth, h => rfl
  | .element id name attributes children, depth, h => by
    simp only [Dom.nodes, Node.heights, Node.height, Nat.max_zero] at h
    have hchildren : lowerNodes limit (depth + 1) (Dom.finishAll children []) =
        .ok (Dom.nodesAll children ++ []) :=
      lowerNodes_finishAll children (by omega) rfl
    rw [Dom.finish, lowerNode, if_neg (by omega), hchildren, List.append_nil, Dom.nodes]
    rfl

theorem lowerNodes_finishAll {limit : Nat} :
    ∀ (trees : List Dom) {depth : Nat} {after : List HtmlNode} {rest : List Node},
      Node.heights (Dom.nodesAll trees) + depth ≤ limit + 1 →
      lowerNodes limit depth after = .ok rest →
        lowerNodes limit depth (Dom.finishAll trees after) = .ok (Dom.nodesAll trees ++ rest)
  | [], depth, after, rest, h, hafter => hafter
  | tree :: older, depth, after, rest, h, hafter => by
    rw [Dom.nodesAll, Node.heights_append] at h
    have hnext : lowerNodes limit depth (tree.finish :: after) = .ok (tree.nodes ++ rest) := by
      rw [lowerNodes, lowerNode_finish tree (by omega), hafter]
      rfl
    rw [Dom.finishAll, lowerNodes_finishAll older (by omega) hnext, Dom.nodesAll,
      List.append_assoc]

end

/-! ## Reading containers -/

theorem mem_rawTextTags_eq_false {tag : String} (h : tag ∈ containerTags) :
    tag ∉ Node.voidTags ∧ tag ∉ Node.rawTextTags := by
  have hall : ∀ tag ∈ containerTags, tag ∉ Node.voidTags ∧ tag ∉ Node.rawTextTags := by decide
  exact hall tag h

theorem isTagName_of_mem_containerTags {tag : String} (h : tag ∈ containerTags) :
    Token.isTagName tag.toList = true ∧ Token.isSettled tag.toList = true := by
  have hall : ∀ tag ∈ containerTags,
      Token.isTagName tag.toList = true ∧ Token.isSettled tag.toList = true := by
    decide
  exact hall tag h

/-- The markup of a container. -/
theorem markup_element {tag : String} (h : tag ∈ containerTags) (rawText : Bool)
    (attributes : Attributes) (children : List Node) :
    Node.markup rawText (.element tag attributes children) =
      Node.openTag tag attributes ++ Node.markups false children ++ Node.closeTag tag := by
  obtain ⟨hvoid, hraw⟩ := mem_rawTextTags_eq_false h
  rw [Node.markup, if_neg hvoid, decide_eq_false hraw]

/-- What may come after a text: a tag, or nothing. -/
def StartsTag (cs : List Char) : Prop :=
  cs = [] ∨ ∃ more, cs = '<' :: more

/-- What is written after a text starts with a tag. -/
theorem startsTag_markups {nodes : List Node} (h : Node.readAllBack true nodes = true)
    {rest : List Char} (hrest : StartsTag rest) : StartsTag (Node.markups false nodes ++ rest) := by
  cases nodes with
  | nil => exact hrest
  | cons node others =>
    cases node with
    | text value => simp [Node.readAllBack, Node.isText] at h
    | root children => simp [Node.readAllBack, Node.readsBack] at h
    | element tag attributes children =>
      simp only [Node.readAllBack, Node.readsBack, Bool.and_eq_true, decide_eq_true_eq] at h
      rw [Node.markups, markup_element h.1.1.1.1.1]
      exact .inr ⟨_, rfl⟩

namespace Builder

/-- A text may be read next: no line feed at its start would be dropped, and it does not stand right
after another one. -/
def TakesText (b : Builder) (children : List Dom) : Prop :=
  b.dropLineFeed = false ∧ ∀ value, children.head? ≠ some (.text value)

/-- Markup is read, after which the innermost element of the path has the given children, which are
those that it had and some more nodes. -/
def Reads (b b' : Builder) (level : Level) (children : List Dom) (outer : List Level)
    (limit : Nat) (text rest : List Char) (nodes : List Node) : Prop :=
  Path { level with children } outer { b' with dropLineFeed := false } ∧
    Dom.nodesAll children = Dom.nodesAll level.children ++ nodes ∧
    ∃ limit', rest.length < limit' ∧ b.readAll limit (text ++ rest) = b'.readAll limit' rest

variable {b : Builder} {level : Level} {outer : List Level} {limit : Nat} {rest : List Char}

theorem withDropLineFeed_eq (h : b.dropLineFeed = false) :
    { b with dropLineFeed := false } = b := by
  rw [← h]

/-- A text is read in one step, or none if it is empty. -/
theorem exists_reads_text {value : String} (hkept : Node.isKept value.toList = true)
    (h : Path level outer { b with dropLineFeed := false }) (htakes : b.TakesText level.children)
    (hrest : StartsTag rest) (hlimit : (Node.escapeText value.toList ++ rest).length < limit) :
    ∃ b' children, Reads b b' level children outer limit (Node.escapeText value.toList) rest
      (Node.withoutEmptyTexts (.text value)) := by
  obtain ⟨hline, hhead⟩ := htakes
  by_cases hempty : value = ""
  · subst hempty
    refine ⟨b, level.children, h, ?_, limit, hlimit, rfl⟩
    rw [Node.withoutEmptyTexts, if_pos rfl, List.append_nil]
  · have hne : value.toList ≠ [] := by simpa using hempty
    have hnull : '\x00' ∉ value.toList := by
      intro hmem
      have hall := List.all_eq_true.1 hkept _ hmem
      revert hall
      decide
    obtain ⟨limit', hlimit', hread⟩ := exists_readAll_eq (b := b) h.reading_eq
      (Token.escapeText_ne_nil hne)
      (fun foreign ↦ Token.readMarkup_escapeText foreign hne hnull hrest) hlimit
    have hpath := (withDropLineFeed_eq hline ▸ h).accept_characters hne
    refine ⟨_, _, (withDropLineFeed_eq hpath.dropLineFeed_eq).symm ▸ hpath, ?_, limit', hlimit',
      hread⟩
    have hpush : Dom.push (.text value.toList) level.children =
        .text value.toList :: level.children := by
      unfold Dom.push
      split
      · next heq => exact absurd (congrArg List.head? heq) (hhead _)
      · rfl
    rw [Node.withoutEmptyTexts, if_neg hempty, hpush, Dom.nodesAll, Dom.nodes,
      String.ofList_toList]

mutual

/-- A node that is read back is read so anywhere in a path. -/
theorem exists_reads_markup : ∀ (node : Node) {b : Builder} {level : Level} {outer : List Level}
    {limit : Nat} {rest : List Char}, Node.readsBack node = true →
      Path level outer { b with dropLineFeed := false } →
      (Node.isText node = true → b.TakesText level.children ∧ StartsTag rest) →
      (Node.markup false node ++ rest).length < limit →
        ∃ b' children, Reads b b' level children outer limit (Node.markup false node) rest
          (Node.withoutEmptyTexts node) ∧ (Node.isText node = false → b'.TakesText children)
  | .root children, b, level, outer, limit, rest, hnode, h, htakes, hlimit => by
    simp [Node.readsBack] at hnode
  | .text value, b, level, outer, limit, rest, hnode, h, htakes, hlimit => by
    obtain ⟨htext, hrest⟩ := htakes rfl
    obtain ⟨b', children, hreads⟩ := exists_reads_text hnode h htext hrest hlimit
    exact ⟨b', children, hreads, nofun⟩
  | .element tag attributes nodes, b, level, outer, limit, rest, hnode, h, htakes, hlimit => by
    simp only [Node.readsBack, Bool.and_eq_true, decide_eq_true_eq] at hnode
    obtain ⟨⟨⟨htag, hattributes⟩, -⟩, hnodes⟩ := hnode
    obtain ⟨hname, hsettled⟩ := isTagName_of_mem_containerTags htag
    have hmarkup : Node.markup false (.element tag attributes nodes) ++ rest =
        Node.openTag tag attributes ++
          (Node.markups false nodes ++ (Node.closeTag tag ++ rest)) := by
      rw [markup_element htag, List.append_assoc, List.append_assoc]
    rw [hmarkup] at hlimit
    -- The opening tag.
    obtain ⟨limit₁, hlimit₁, hread₁⟩ := exists_readAll_tag (b := b) h.reading_eq
      (Token.written_openTag_of_isTagName hname hsettled hattributes) hlimit
    have htag' : (⟨tag, attributes.entries, false⟩ : Tag).name ∈ containerTags := htag
    obtain ⟨id, hpath₁, hline₁⟩ := h.accept_startTag htag'
    generalize b.accept (.startTag ⟨tag, attributes.entries, false⟩) = b₁ at hpath₁ hline₁ hread₁
    -- What the element holds.
    have htakes₁ (hbarred : decide (tag ∈ Node.lineFeedTags) = false) : b₁.TakesText [] :=
      ⟨hline₁ (of_decide_eq_false hbarred), fun value ↦ by simp⟩
    have hclose : StartsTag (Node.closeTag tag ++ rest) := .inr ⟨_, rfl⟩
    obtain ⟨b₂, children, hpath₂, hchildren, limit₂, hlimit₂, hread₂⟩ :=
      exists_reads_markups nodes hnodes hpath₁ htakes₁ hclose hlimit₁
    -- The end tag.
    obtain ⟨limit₃, hlimit₃, hread₃⟩ := exists_readAll_tag (b := b₂) hpath₂.reading_eq
      (Token.written_closeTag_of_isTagName hname hsettled) hlimit₂
    have hpath₃ := hpath₂.accept_endTag htag
    refine ⟨_, _, ⟨(withDropLineFeed_eq hpath₃.dropLineFeed_eq).symm ▸ hpath₃, ?_, limit₃, hlimit₃,
      ?_⟩, fun _ ↦ ⟨hpath₃.dropLineFeed_eq, ?_⟩⟩
    · show Dom.nodesAll level.children ++ [.element tag
        (attributesOf (htmlAttributes ⟨tag, attributes.entries, false⟩))
        (Dom.nodesAll children)] = _
      rw [attributesOf_htmlAttributes, Attributes.ofList_entries, hchildren, Node.withoutEmptyTexts]
      rfl
    · rw [hmarkup, hread₁, hread₂, hread₃]
    · intro value heq
      cases heq

/-- Nodes that are read back are read so anywhere in a path. -/
theorem exists_reads_markups : ∀ (nodes : List Node) {textBarred : Bool} {b : Builder}
    {level : Level} {outer : List Level} {limit : Nat} {rest : List Char},
      Node.readAllBack textBarred nodes = true →
      Path level outer { b with dropLineFeed := false } →
      (textBarred = false → b.TakesText level.children) → StartsTag rest →
      (Node.markups false nodes ++ rest).length < limit →
        ∃ b' children, Reads b b' level children outer limit (Node.markups false nodes) rest
          (Node.dropEmptyTexts nodes)
  | [], textBarred, b, level, outer, limit, rest, hnodes, h, htakes, hrest, hlimit =>
    ⟨b, level.children, h, (List.append_nil _).symm, limit, hlimit, rfl⟩
  | node :: others, textBarred, b, level, outer, limit, rest, hnodes, h, htakes, hrest, hlimit => by
    simp only [Node.readAllBack, Bool.and_eq_true] at hnodes
    obtain ⟨⟨hnode, hbarred⟩, hothers⟩ := hnodes
    rw [Node.markups, List.append_assoc] at hlimit
    have htext (hisText : Node.isText node = true) :
        b.TakesText level.children ∧ StartsTag (Node.markups false others ++ rest) := by
      rw [hisText] at hbarred hothers
      exact ⟨htakes (by simpa using hbarred), startsTag_markups hothers hrest⟩
    obtain ⟨b₁, children₁, ⟨hpath₁, hnodes₁, limit₁, hlimit₁, hread₁⟩, htakes₁⟩ :=
      exists_reads_markup node hnode h htext hlimit
    obtain ⟨b₂, children₂, hpath₂, hnodes₂, limit₂, hlimit₂, hread₂⟩ :=
      exists_reads_markups others hothers hpath₁ htakes₁ hrest hlimit₁
    refine ⟨b₂, children₂, hpath₂, ?_, limit₂, hlimit₂, ?_⟩
    · rw [hnodes₂, hnodes₁, Node.dropEmptyTexts, List.append_assoc]
    · rw [Node.markups, List.append_assoc, hread₁, hread₂]

end

theorem path_empty : empty.Path ⟨⟨0, ⟨.html, "html"⟩⟩, [], []⟩ [] where
  tree_eq := rfl
  stack_eq := rfl
  nodup := by decide
  lt_nextId := by simp [empty]
  isContainer := by simp [OpenElement.IsContainer]
  formatting_sublist := List.nil_sublist _
  formatting_phrase := by simp [empty]
  mode_eq := rfl
  reading_eq := rfl
  fostering_eq := rfl
  dropLineFeed_eq := rfl

end Builder

/-! ## Whole fragments -/

mutual

theorem return_not_mem_markup : ∀ {node : Node}, Node.readsBack node = true →
    '\r' ∉ Node.markup false node
  | .root children, h => by simp [Node.readsBack] at h
  | .text value, h => by
    intro hmem
    rcases Token.of_mem_escapeText hmem with ⟨hvalue, -⟩ | hname
    · have hall := List.all_eq_true.1 h _ hvalue
      revert hall
      decide
    · revert hname
      decide
  | .element tag attributes children, h => by
    simp only [Node.readsBack, Bool.and_eq_true, decide_eq_true_eq] at h
    obtain ⟨⟨⟨htag, -⟩, hopen⟩, hchildren⟩ := h
    have hclose : ∀ tag ∈ containerTags, '\r' ∉ Node.closeTag tag := by decide
    rw [markup_element htag, List.mem_append, List.mem_append, not_or, not_or]
    refine ⟨⟨fun hmem ↦ ?_, return_not_mem_markups hchildren⟩, hclose tag htag⟩
    have hall := List.all_eq_true.1 hopen _ hmem
    revert hall
    decide

/-- What is written for nodes that are read back has no carriage returns. -/
theorem return_not_mem_markups : ∀ {nodes : List Node} {textBarred : Bool},
    Node.readAllBack textBarred nodes = true → '\r' ∉ Node.markups false nodes
  | [], textBarred, h => List.not_mem_nil
  | node :: rest, textBarred, h => by
    simp only [Node.readAllBack, Bool.and_eq_true] at h
    rw [Node.markups, List.mem_append, not_or]
    exact ⟨return_not_mem_markup h.1.1, return_not_mem_markups h.2⟩

end

/-- Containers and texts are read back as they are written, but for empty texts. -/
theorem compileFragment_renderHtml {limit : Nat} {nodes : List Node}
    (hnodes : Node.readAllBack false nodes = true) (hheights : Node.heights nodes ≤ limit)
    (hmark : (Node.markups false nodes).head? ≠ some '\ufeff') :
    compileFragment limit (Node.renderHtml nodes) = .ok (Node.dropEmptyTexts nodes) := by
  have hlines := normalizeLineEnds_append_of_not_mem (return_not_mem_markups hnodes) []
  rw [normalizeLineEnds, List.append_nil] at hlines
  have htakes : Builder.empty.TakesText [] := ⟨rfl, fun value ↦ by simp⟩
  have hlength : (Node.markups false nodes ++ []).length <
      (Node.markups false nodes).length + 1 := by
    simp
  obtain ⟨b, children, hpath, hchildren, limit', -, hread⟩ :=
    Builder.exists_reads_markups nodes (b := Builder.empty) hnodes Builder.path_empty
      (fun _ ↦ htakes) (.inl rfl) hlength
  have hend : b.readAll limit' [] = b := by
    cases limit' <;> rfl
  have hmode : b.atEnd = b := by
    have hbody : b.mode = .body := hpath.mode_eq
    rw [Builder.atEnd, hbody]
    rfl
  have htree : b.tree = .element 0 ⟨.html, "html"⟩ [] children := hpath.tree_eq
  have hnodesAll : Dom.nodesAll children = Node.dropEmptyTexts nodes := hchildren
  have hlower : lowerNodes limit 1 (Dom.finishAll children []) =
      .ok (Dom.nodesAll children ++ []) := by
    refine lowerNodes_finishAll children ?_ rfl
    rw [hnodesAll, Node.heights_dropEmptyTexts]
    omega
  rw [List.append_nil, hend] at hread
  rw [Node.renderHtml, compileFragment_eq, parseFragment_ofList hmark, hlines, hread, hmode, htree,
    Dom.finish]
  dsimp only
  rw [hlower, List.append_nil, hnodesAll]

end Html

end NotebookTree
