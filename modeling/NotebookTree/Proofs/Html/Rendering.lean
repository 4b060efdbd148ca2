import NotebookTree.Proofs.Html.Context
import NotebookTree.Proofs.Html.Writing

/-!
# Text of nodes that are rendered and read again

`Node.textContents_of_compileFragment_renderHtml` says when nodes that are written as HTML and read
again have the same text.
-/

namespace NotebookTree

open Html (Builder Context Mode Token Watch alteringTags textTags)

namespace Node

/-! ## Nodes whose text is read back -/

/-- Are the names of a tag and of its attributes read as names? -/
def isNamed (tag : String) (attributes : Attributes) : Bool :=
  Token.isTagName tag.toList && attributes.entries.all (Token.isAttributeName ·.1.toList)

mutual

/-- Is the text of a node in a place read back from what is written for it? There may be foreign
elements if it is said so. -/
def isLegible (foreign : Bool) (context : Context) : Node → Bool
  | text value => value.toList.all context.allows
  | root children => areLegible foreign context children
  | element tag attributes children =>
    let name := Token.spelled tag
    let value := (textContents children).toList
    isNamed tag attributes && (foreign || name ∉ ["math", "svg"]) &&
      if context = .content ∧ name = "template" then
        children.isEmpty && attributes.entries.all (Token.spelled ·.1 != "shadowrootmode")
      else
        (context.inside foreign name).any fun inner ↦
          if tag ∈ voidTags then value.isEmpty
          else if name ∈ textTags then
            name != "plaintext" && !value.contains '\x00' &&
              Token.readsAs foreign name (markups (tag ∈ rawTextTags) children) value
          else
            (name ∉ ["listing", "pre"] || (markups false children).head? != some '\n') &&
              areLegible foreign inner children

/-- Is the text of nodes in a place read back from what is written for them? -/
def areLegible (foreign : Bool) (context : Context) : List Node → Bool
  | [] => true
  | node :: rest => isLegible foreign context node && areLegible foreign context rest

end

/-- Is the text of nodes read back from their markup? It may not have carriage returns, and may not
start with a byte order mark. -/
def isReadBack (nodes : List Node) : Bool :=
  !(markups false nodes).contains '\r' && (markups false nodes).head? != some '\ufeff' &&
    (areLegible false .content nodes || areLegible true .content nodes)

/-! ## Marks of text alone -/

section Marks

variable {w : Watch}

mutual

theorem marks_eq_textContent (hw : w.standIns = false) :
    ∀ node : Node, node.marks w = node.textContent.toList.map .char
  | text value => rfl
  | root children => by rw [marks, textContent, marksAll_eq_textContents hw children]
  | element tag attributes children => by
    rw [marks, if_neg (by simp [Watch.isLeaf, hw]), textContent,
      marksAll_eq_textContents hw children]

/-- If stand-ins are not watched for, the marks of nodes are the characters of their text. -/
theorem marksAll_eq_textContents (hw : w.standIns = false) :
    ∀ nodes : List Node, marksAll w nodes = (textContents nodes).toList.map .char
  | [] => rfl
  | node :: rest => by
    rw [marksAll, textContents, String.toList_append, List.map_append, marks_eq_textContent hw node,
      marksAll_eq_textContents hw rest]

end

end Marks

/-! ## Reading the markup -/

section Reading

variable {w : Watch} {ms : List Mark} {final : Builder} {rest : List Char} {tag : String}
  {attributes : Attributes} {children : List Node}

theorem written_openTag (h : isNamed tag attributes = true) :
    Token.Written
      (.startTag ⟨Token.spelled tag, attributes.entries.foldl Token.addWritten [], false⟩)
      (openTag tag attributes) := by
  rw [isNamed, Bool.and_eq_true, List.all_eq_true] at h
  exact Token.written_openTag_spelled h.1 h.2

theorem written_closeTag (h : isNamed tag attributes = true) :
    Token.Written (.endTag (Token.spelled tag)) (closeTag tag) := by
  rw [isNamed, Bool.and_eq_true] at h
  exact Token.written_closeTag_spelled h.1

/-- The attributes of a tag are read with the names that they are written with. -/
theorem exists_of_mem_foldl_addWritten {entries before : List (String × String)}
    {entry : String × String} (h : entry ∈ entries.foldl Token.addWritten before) :
    entry ∈ before ∨ ∃ other ∈ entries, entry.1 = Token.spelled other.1 := by
  induction entries generalizing before with
  | nil => exact .inl h
  | cons first others ih =>
    rcases ih h with hmem | ⟨other, hother, heq⟩
    · rw [Token.addWritten, Token.addAttribute] at hmem
      split at hmem
      · exact .inl hmem
      · rcases List.mem_append.1 hmem with hmem | hmem
        · exact .inl hmem
        · rw [List.mem_singleton] at hmem
          exact .inr ⟨first, List.mem_cons_self, congrArg Prod.fst hmem⟩
    · exact .inr ⟨other, List.mem_cons_of_mem _ hother, heq⟩

section Element

variable {context inner : Context} {inv : List Mark → Builder → Prop}

/-- A template is read without contents. -/
theorem arrives_of_template (hreads : Context.content.Reads w inv)
    (hnamed : isNamed tag attributes = true) (hname : Token.spelled tag = "template")
    (hattributes : ∀ entry ∈ attributes.entries, Token.spelled entry.1 ≠ "shadowrootmode")
    (h : Builder.Arrives inv Context.content.allows ms
      (openTag tag attributes ++ (closeTag tag ++ rest)) final) :
    Builder.Arrives inv Context.content.allows ms rest final := by
  have hclosing := written_closeTag hnamed
  rw [hname] at hclosing
  cases hreads with
  | content hseat =>
    refine h.template hseat hname rfl (fun entry hmem ↦ ?_) (written_openTag hnamed) hclosing
    rcases exists_of_mem_foldl_addWritten hmem with hmem | ⟨other, hother, heq⟩
    · exact absurd hmem List.not_mem_nil
    · exact heq ▸ hattributes other hother

/-- The text of an element that holds text alone is read by rules of its own. -/
theorem arrives_of_textElement (hreads : context.Reads w inv)
    (hinside : context.inside w.foreign (Token.spelled tag) = some inner)
    (hnamed : isNamed tag attributes = true) (hname : Token.spelled tag ∈ textTags)
    (hplaintext : Token.spelled tag ≠ "plaintext") {written value : List Char}
    (hnull : '\x00' ∉ value)
    (hvalue : Token.readsAs w.foreign (Token.spelled tag) written value = true)
    (h : Builder.Arrives inv context.allows ms
      (openTag tag attributes ++ (written ++ (closeTag tag ++ rest))) final) :
    Builder.Arrives inv context.allows (ms ++ value.map .char) rest final := by
  have hnames := (show ∀ name ∈ textTags, name ∉ Context.placeTags ∧
    name ∉ "col" :: Builder.optionTags by decide) _ hname
  obtain rfl := Context.eq_of_inside hinside hnames.1
  obtain rfl := Context.eq_content_of_inside hinside hnames.2
  cases hreads with
  | content hseat =>
    exact h.textElement (written_openTag hnamed) (written_closeTag hnamed) hname hplaintext hnull
      hvalue

/-- The opening tag of an element that makes no place of its own drops nothing of what comes after
it. -/
theorem arrives_of_openTag (hw : w.standIns = false) (hreads : context.Reads w inv)
    (hinside : context.inside w.foreign (Token.spelled tag) = some context)
    (hnamed : isNamed tag attributes = true)
    (hforeign : w.foreign = true ∨ Token.spelled tag ∉ ["math", "svg"])
    (hname : Token.spelled tag ∉ textTags)
    (hpre : Token.spelled tag ∈ ["listing", "pre"] →
      ∃ c more, rest = c :: more ∧ c ≠ '\n')
    (h : Builder.Arrives inv context.allows ms (openTag tag attributes ++ rest) final) :
    Builder.Arrives inv context.allows ms rest final := by
  have hopening := written_openTag hnamed
  by_cases hnamePre : Token.spelled tag ∈ ["listing", "pre"]
  · obtain ⟨c, more, rfl, hc⟩ := hpre hnamePre
    obtain rfl := Context.eq_content_of_inside hinside
      ((show ∀ name ∈ ["listing", "pre"], name ∉ "col" :: Builder.optionTags by decide) _ hnamePre)
    cases hreads with
    | content hseat => exact h.preformatted hopening hnamePre hc
  · refine hreads.startTag hinside ⟨?_, by simp [Watch.isLeaf, hw], fun hfalse ↦ ?_⟩ hopening h
    · exact Context.eq_standInTag_of_inside hinside (List.not_mem_append hname hnamePre)
    · exact hforeign.resolve_left (by simp [hfalse])

/-- What stands in an element is read between its tags. -/
theorem arrives_of_element (hw : w.standIns = false) (hreads : context.Reads w inv)
    (helement : isLegible w.foreign context (.element tag attributes children) = true)
    (hchildren : ∀ {inner : Context} {inv : List Mark → Builder → Prop}, inner.Reads w inv →
      areLegible w.foreign inner children = true → ∀ {ms : List Mark} {rest : List Char},
        Builder.Arrives inv inner.allows ms (markups false children ++ rest) final →
          Builder.Arrives inv inner.allows (ms ++ marksAll w children) rest final)
    (h : Builder.Arrives inv context.allows ms
      (markup false (.element tag attributes children) ++ rest) final) :
    Builder.Arrives inv context.allows (ms ++ marksAll w children) rest final := by
  rw [isLegible] at helement
  simp only [Bool.and_eq_true, Bool.or_eq_true, decide_eq_true_eq] at helement
  obtain ⟨⟨hnamed, hforeign⟩, helement⟩ := helement
  rw [markup] at h
  by_cases htemplate : context = .content ∧ Token.spelled tag = "template"
  · rw [if_pos htemplate, Bool.and_eq_true, List.all_eq_true] at helement
    obtain ⟨rfl, hname⟩ := htemplate
    have hnotVoid : tag ∉ voidTags := fun hmem ↦
      (show ∀ tag ∈ voidTags, Token.spelled tag ≠ "template" by decide) tag hmem hname
    rw [if_neg hnotVoid, List.isEmpty_iff.1 helement.1, markups, List.append_nil,
      List.append_assoc] at h
    rw [List.isEmpty_iff.1 helement.1, marksAll, List.append_nil]
    exact arrives_of_template hreads hnamed hname
      (fun entry hmem ↦ bne_iff_ne.1 (helement.2 entry hmem)) h
  rw [if_neg htemplate, Option.any_eq_true] at helement
  obtain ⟨inner, hinside, helement⟩ := helement
  by_cases hvoid : tag ∈ voidTags
  · rw [if_pos hvoid] at h helement
    have hnames := (show ∀ tag ∈ voidTags, Token.spelled tag ∉ Context.placeTags ∧
      Token.spelled tag ∉ textTags ∧ Token.spelled tag ∉ ["listing", "pre"] by decide) tag hvoid
    obtain rfl := Context.eq_of_inside hinside hnames.1
    have hempty : (textContents children).toList = [] := by simpa using helement
    rw [marksAll_eq_textContents hw, hempty, List.map_nil, List.append_nil]
    exact arrives_of_openTag hw hreads hinside hnamed hforeign hnames.2.1
      (fun hpre ↦ absurd hpre hnames.2.2) h
  rw [if_neg hvoid, List.append_assoc, List.append_assoc] at h
  rw [if_neg hvoid] at helement
  by_cases htext : Token.spelled tag ∈ textTags
  · rw [if_pos htext] at helement
    simp only [Bool.and_eq_true, bne_iff_ne] at helement
    rw [marksAll_eq_textContents hw]
    exact arrives_of_textElement hreads hinside hnamed htext helement.1.1
      (by simpa using helement.1.2) helement.2 h
  rw [if_neg htext, Bool.and_eq_true] at helement
  have hraw : tag ∉ rawTextTags := by
    intro hmem
    exact htext ((show ∀ tag ∈ rawTextTags, Token.spelled tag ∈ textTags by decide) tag hmem)
  rw [decide_eq_false hraw] at h
  by_cases hself : inner = context
  · subst hself
    refine hreads.endTag hinside (written_closeTag hnamed) (hchildren hreads helement.2 ?_)
    refine arrives_of_openTag hw hreads hinside hnamed hforeign htext (fun hpre ↦ ?_) h
    have hhead : (markups false children).head? ≠ some '\n' := by
      simpa [hpre] using helement.1
    cases hcs : markups false children with
    | nil => exact ⟨'<', _, rfl, by decide⟩
    | cons c more =>
      rw [hcs] at hhead
      exact ⟨c, _, rfl, fun hc ↦ hhead (congrArg some hc)⟩
  · -- The element makes a place of its own.
    obtain ⟨inv', hinner, hentered, hleave⟩ :=
      hreads.enters hinside hself (written_openTag hnamed) h
    exact hleave (written_closeTag hnamed) (hchildren hinner helement.2 hentered)

end Element

mutual

theorem arrives_of_markup (hw : w.standIns = false) :
    ∀ (node : Node) {context : Context} {inv : List Mark → Builder → Prop},
      context.Reads w inv → isLegible w.foreign context node = true →
        ∀ {ms : List Mark} {rest : List Char},
          Builder.Arrives inv context.allows ms (markup false node ++ rest) final →
            Builder.Arrives inv context.allows (ms ++ node.marks w) rest final
  | text value, context, inv, hreads, hnode, ms, rest, h => by
    rw [isLegible, List.all_eq_true] at hnode
    exact h.text hnode
  | root children, context, inv, hreads, hnode, ms, rest, h =>
    arrives_of_markups hw children hreads hnode h
  | element tag attributes children, context, inv, hreads, hnode, ms, rest, h => by
    rw [marks, if_neg (by simp [Watch.isLeaf, hw])]
    exact arrives_of_element hw hreads hnode (arrives_of_markups hw children) h

/-- Nodes whose text can be read back are read with their text. -/
theorem arrives_of_markups (hw : w.standIns = false) :
    ∀ (nodes : List Node) {context : Context} {inv : List Mark → Builder → Prop},
      context.Reads w inv → areLegible w.foreign context nodes = true →
        ∀ {ms : List Mark} {rest : List Char},
          Builder.Arrives inv context.allows ms (markups false nodes ++ rest) final →
            Builder.Arrives inv context.allows (ms ++ marksAll w nodes) rest final
  | [], context, inv, _, _, ms, rest, h => by
    rw [marksAll, List.append_nil]
    exact h
  | node :: others, context, inv, hreads, hnodes, ms, rest, h => by
    rw [areLegible, Bool.and_eq_true] at hnodes
    rw [markups, List.append_assoc] at h
    rw [marksAll, ← List.append_assoc]
    exact arrives_of_markups hw others hreads hnodes.2
      (arrives_of_markup hw node hreads hnodes.1 h)

end

end Reading

/-! ## Rendering -/

/-- Nodes whose text can be read back have the same text once they are rendered and read again. -/
theorem textContents_of_compileFragment_renderHtml {limit : Nat} {nodes nodes' : List Node}
    (hnodes : isReadBack nodes = true)
    (h : Html.compileFragment limit (renderHtml nodes) = .ok nodes') :
    textContents nodes' = textContents nodes := by
  simp only [isReadBack, Bool.and_eq_true, Bool.or_eq_true, Bool.not_eq_true', bne_iff_ne] at hnodes
  obtain ⟨⟨hreturn, hmark⟩, hlegible⟩ := hnodes
  obtain ⟨w, hw, hlegible⟩ : ∃ w : Watch, w.standIns = false ∧
      areLegible w.foreign .content nodes = true :=
    hlegible.elim (fun h ↦ ⟨⟨false, false⟩, rfl, h⟩) fun h ↦ ⟨⟨false, true⟩, rfl, h⟩
  have hlines : Html.normalizeLineEnds (markups false nodes) = markups false nodes := by
    have hplain : '\r' ∉ markups false nodes := by simpa using hreturn
    simpa [Html.normalizeLineEnds] using Html.normalizeLineEnds_append_of_not_mem hplain []
  have hstart : Builder.Arrives (Builder.Flows w Builder.wrapper []) Context.content.allows []
      (markups false nodes ++ [])
      (Builder.empty.readAll ((markups false nodes).length + 1) (markups false nodes)) := by
    rw [List.append_nil]
    exact Builder.flows_empty.arrives (Nat.lt_succ_self _)
  have hend := (arrives_of_markups hw nodes (.content Builder.isSeat_wrapper) hlegible
    hstart).steady
  rw [← hlines] at hend
  have hmarks := Html.marksAll_of_compileFragment hmark hend h
  rw [List.nil_append, marksAll_eq_textContents hw, marksAll_eq_textContents hw] at hmarks
  have hinjective : Function.Injective Mark.char := fun _ _ heq ↦ Mark.char.inj heq
  exact String.toList_inj.1 (hinjective.list_map hmarks)

/-- A comparison in bold type, a script with another one, a table, a selection and a template. -/
def comparisons : List Node :=
  [.element "b" .empty [.text "1 < 2"], .element "script" .empty [.text "if (a<b && b) x()"],
    .element "br" .empty [],
    .element "table" .empty [.text "\n", .element "tbody" .empty [.element "tr" .empty
      [.element "th" .empty [.text "&lt;"], .element "td" .empty [.text "<"]]]],
    .element "select" .empty [.element "option" .empty [.text "<="]],
    .element "template" .empty []]

theorem textContents_of_compileFragment_renderHtml_comparisons :
    ∃ nodes, isReadBack comparisons = true ∧
      Html.compileFragment 4 (renderHtml comparisons) = .ok nodes ∧
      textContents nodes = "1 < 2if (a<b && b) x()\n&lt;<<=" := by
  have hread : isReadBack comparisons = true := by decide +kernel
  have hok : (Html.compileFragment 4 (renderHtml comparisons)).isOk = true := by decide +kernel
  obtain ⟨nodes, hnodes⟩ := Outcome.exists_eq_ok hok
  exact ⟨nodes, hread, hnodes, textContents_of_compileFragment_renderHtml hread hnodes⟩

/-- Text in `xmp` is read as it is but written escaped, so that it is another one when it is read
again. -/
theorem not_textContents_compileFragment_renderHtml :
    ¬∀ (limit : Nat) (html : String) (nodes nodes' : List Node),
      Html.compileFragment limit html = .ok nodes →
        Html.compileFragment limit (renderHtml nodes) = .ok nodes' →
          textContents nodes' = textContents nodes := by
  intro h
  have htext : ((Html.compileFragment 1 "<xmp>1 < 2</xmp>").toOption.bind fun nodes ↦
      (Html.compileFragment 1 (renderHtml nodes)).toOption.map fun nodes' ↦
        (textContents nodes, textContents nodes')) = some ("1 < 2", "1 &lt; 2") := by
    decide +kernel
  obtain ⟨nodes, hnodes, hmore⟩ := Option.bind_eq_some_iff.1 htext
  obtain ⟨nodes', hnodes', htexts⟩ := Option.map_eq_some_iff.1 hmore
  have hkept := h 1 "<xmp>1 < 2</xmp>" nodes nodes' (Outcome.eq_ok_of_toOption hnodes)
    (Outcome.eq_ok_of_toOption hnodes')
  obtain ⟨hfirst, hsecond⟩ := Prod.mk.inj htexts
  rw [hfirst, hsecond] at hkept
  exact absurd hkept (by decide)

end Node

end NotebookTree
