import NotebookTree.Proofs.Html.Cell
import NotebookTree.Proofs.Html.Selection
import NotebookTree.Proofs.Html.Template
import NotebookTree.Proofs.Html.TextContent

/-!
# Where elements may stand

Elements of most names may stand in content of any kind. A table has captions, groups of columns
and sections, a section has rows, and a row has cells; in all of these but captions and cells there
is blank text only. A selection has options.

A builder that reads what stands in one of these places reads an element of a fitting name there. If
the element makes a place of its own, the builder reads what is inside in that place, and then goes
on around the element.
-/

namespace NotebookTree.Html

open Builder

/-- The places for nodes. -/
inductive Context where
  | content
  | table
  | rowGroup
  | row
  | columns
  | options
  deriving DecidableEq

namespace Context

/-- The place inside an element of the name. Nothing if no such element may stand there. Foreign
elements, which may be selections too, are there if it is said so. -/
def inside (foreign : Bool) (name : String) : Context → Option Context
  | content =>
    if name = "table" then some table
    else if name = "select" ∧ foreign = false then some options
    else if isModalName name then none
    else some content
  | table =>
    if name = "caption" then some content
    else if name = "colgroup" then some columns
    else if name ∈ ["tbody", "tfoot", "thead"] then some rowGroup
    else none
  | rowGroup => if name = "tr" then some row else none
  | row => if name ∈ ["td", "th"] then some content else none
  | columns => if name = "col" then some columns else none
  | options => if name ∈ optionTags then some options else none

/-- May the character stand in a text there? -/
def allows : Context → Char → Bool
  | content | options => isTextChar
  | table | rowGroup | row | columns => isTableBlank

/-- A builder with the invariant reads what stands there. -/
inductive Reads (w : Watch) : Context → (List Mark → Builder → Prop) → Prop where
  | content {holder : OpenElement} {below : List OpenElement} (hseat : IsSeat holder below) :
    Reads w content (Flows w holder below)
  | table (id : Nat) (stack : List OpenElement) :
    Reads w table (Nested w .table (⟨id, ⟨.html, "table"⟩⟩ :: stack))
  | rowGroup (id : Nat) {name : String} (stack : List OpenElement)
    (hname : name ∈ ["tbody", "tfoot", "thead"]) :
    Reads w rowGroup (Nested w .tableBody (⟨id, ⟨.html, name⟩⟩ :: stack))
  | row (id : Nat) (stack : List OpenElement) :
    Reads w row (Nested w .row (⟨id, ⟨.html, "tr"⟩⟩ :: stack))
  | columns (id : Nat) (stack : List OpenElement) :
    Reads w columns (Nested w .columnGroup (⟨id, ⟨.html, "colgroup"⟩⟩ :: stack))
  | options {holder : OpenElement} {below : List OpenElement} (hseat : IsSeat holder below) :
    Reads w options (Chooses w holder below)

variable {w : Watch} {context inner : Context} {inv : List Mark → Builder → Prop} {ms : List Mark}
  {final : Builder} {tag : Tag} {name : String} {cs rest : List Char}

/-! ## Elements that make no place of their own -/

theorem inside_self {foreign : Bool} (h : context.inside foreign name = some context) :
    (context = content ∧ isModalName name = false) ∨ (context = columns ∧ name = "col") ∨
      (context = options ∧ name ∈ optionTags) := by
  cases context <;> simp only [inside] at h <;> split_ifs at h <;> simp_all

/-- Elements that may make a place of their own. -/
def placeTags : List String :=
  ["caption", "colgroup", "select", "table", "tbody", "td", "tfoot", "th", "thead", "tr"]

theorem eq_of_inside {foreign : Bool} (h : context.inside foreign name = some inner)
    (hname : name ∉ placeTags) : inner = context := by
  simp only [placeTags, List.mem_cons, List.not_mem_nil, or_false, not_or] at hname
  cases context <;> simp only [inside] at h <;> split_ifs at h <;> simp_all

/-- An ordinary element stands in content of any kind only. -/
theorem eq_content_of_inside {foreign : Bool} (h : context.inside foreign name = some context)
    (hname : name ∉ "col" :: optionTags) : context = content := by
  rw [List.mem_cons, not_or] at hname
  rcases inside_self h with ⟨hcontext, -⟩ | ⟨-, hcolumn⟩ | ⟨-, hoption⟩
  · exact hcontext
  · exact absurd hcolumn hname.1
  · exact absurd hoption hname.2

theorem eq_standInTag_of_inside {foreign : Bool} (h : context.inside foreign name = some context)
    (hname : name ∉ textTags ++ ["listing", "pre"]) (halters : name ∈ alteringTags) :
    name = standInTag := by
  have hcases : ∀ name ∈ alteringTags, name ∉ "col" :: optionTags ∧
      (isModalName name = true ∨ name ∈ textTags ++ ["listing", "pre"] ∨ name = standInTag) := by
    decide
  obtain ⟨hother, hcase⟩ := hcases name halters
  rcases inside_self h with ⟨-, hmodal⟩ | ⟨-, hcolumn⟩ | ⟨-, hoption⟩
  · rcases hcase with hmodal' | hname' | heq
    · exact absurd (hmodal'.symm.trans hmodal) (by decide)
    · exact absurd hname' hname
    · exact heq
  · exact absurd (List.mem_cons.2 (.inl hcolumn)) hother
  · exact absurd (List.mem_cons_of_mem _ hoption) hother

/-- Such an element is opened, or added. -/
theorem Reads.startTag (hreads : context.Reads w inv)
    (hinside : context.inside w.foreign tag.name = some context) (hspares : w.Spares tag.name)
    (hwritten : Token.Written (.startTag tag) cs)
    (h : Arrives inv context.allows ms (cs ++ rest) final) :
    Arrives inv context.allows ms rest final := by
  rcases inside_self hinside with ⟨rfl, hname⟩ | ⟨rfl, hname⟩ | ⟨rfl, hname⟩
  · cases hreads
    exact h.startTag hspares hname hwritten
  · cases hreads
    exact h.columnStart hname hwritten
  · cases hreads
    exact h.openOption hname hwritten

theorem Reads.endTag (hreads : context.Reads w inv)
    (hinside : context.inside w.foreign name = some context)
    (hwritten : Token.Written (.endTag name) cs)
    (h : Arrives inv context.allows ms (cs ++ rest) final) :
    Arrives inv context.allows ms rest final := by
  rcases inside_self hinside with ⟨rfl, hname⟩ | ⟨rfl, rfl⟩ | ⟨rfl, hname⟩
  · cases hreads
    exact h.endTag hname hwritten
  · cases hreads
    exact h.columnEnd hwritten
  · cases hreads
    exact h.closeOption hname hwritten

/-! ## Elements that make a place of their own -/

/-- The reading goes on inside an element of the name, and its end tag leads back to the place in
which the element stands. -/
def Enters (w : Watch) (name : String) (context inner : Context)
    (inv : List Mark → Builder → Prop) (ms : List Mark) (rest : List Char) (final : Builder) :
    Prop :=
  ∃ inv', inner.Reads w inv' ∧ Arrives inv' inner.allows ms rest final ∧
    ∀ {ms : List Mark} {cs rest : List Char}, Token.Written (.endTag name) cs →
      Arrives inv' inner.allows ms (cs ++ rest) final → Arrives inv context.allows ms rest final

section Parts

variable {mode outer : Mode} {id : Nat} {base : List OpenElement}

/-- A part of a table that has just been opened, and holds other parts. -/
theorem enters_part (hreads : inner.Reads w (Nested w mode (⟨id, ⟨.html, name⟩⟩ :: base)))
    (h : Arrives (Nested w mode (⟨id, ⟨.html, name⟩⟩ :: base)) isTableBlank ms rest final)
    (hinner : inner.allows = isTableBlank) (hcontext : context.allows = isTableBlank)
    (hname : name ∈ modalTags) (hblanks : TakesBlanks w mode (⟨id, ⟨.html, name⟩⟩ :: base))
    (hstep : ∀ {ms : List Mark} (b : Builder),
      b.Nested w mode (⟨id, ⟨.html, name⟩⟩ :: base) ms →
        b.inMode (.endTag name) = .done (b.pop.withMode outer)) :
    Enters w name context inner (Nested w outer base) ms rest final := by
  refine ⟨_, hreads, hinner ▸ h, fun hclosing h ↦ ?_⟩
  rw [hinner] at h
  rw [hcontext]
  exact h.closePart (OpenElement.isModal_mk hname) rfl hblanks hclosing hstep

/-- A cell or a caption that has just been opened. -/
theorem enters_content
    (h : Arrives (Nested w mode (⟨id, ⟨.html, name⟩⟩ :: base)) isTableBlank ms rest final)
    (hcontext : context.allows = isTableBlank) (hname : name ∈ ["caption", "td", "th"])
    (hmode : contentMode ⟨id, ⟨.html, name⟩⟩ = mode) (hafter : modeAfter name = outer)
    (hbase : ∃ element ∈ base, element.isModal = true) :
    Enters w name context content (Nested w outer base) ms rest final := by
  have hpart : OpenElement.isHtmlIn ⟨id, ⟨.html, name⟩⟩ ["caption", "td", "th"] = true :=
    Bool.and_eq_true_iff.2 ⟨rfl, decide_eq_true hname⟩
  refine ⟨_, .content (.part hpart hbase), h.content hname hmode, fun hclosing h ↦ ?_⟩
  rw [hcontext, ← hafter]
  exact h.closeCell hname hbase hclosing

end Parts

/-- In a table a caption, a group of columns or a section is entered. -/
theorem enters_of_table {id : Nat} {stack : List OpenElement}
    (hinside : table.inside w.foreign tag.name = some inner)
    (hwritten : Token.Written (.startTag tag) cs)
    (h : Arrives (Nested w .table (⟨id, ⟨.html, "table"⟩⟩ :: stack)) isTableBlank ms (cs ++ rest)
      final) :
    Enters w tag.name table inner (Nested w .table (⟨id, ⟨.html, "table"⟩⟩ :: stack)) ms rest
      final := by
  have hopen {mode' : Mode} (hname : (tag.name = "caption" ∧ mode' = .caption) ∨
      (tag.name = "colgroup" ∧ mode' = .columnGroup) ∨
      (tag.name ∈ ["tbody", "tfoot", "thead"] ∧ mode' = .tableBody)) :=
    h.openPart (OpenElement.isModal_mk (by decide)) rfl takesBlanks_table hwritten fun b hb ↦
      hb.exists_inMode_startTag_table rfl hname
  simp only [inside] at hinside
  split_ifs at hinside with hcaption hcolumns hgroup
  · cases hinside
    obtain ⟨id', harrives⟩ := hopen (.inl ⟨hcaption, rfl⟩)
    rw [hcaption] at harrives ⊢
    exact enters_content harrives rfl (by decide) rfl rfl
      ⟨_, List.mem_cons_self, OpenElement.isModal_mk (by decide)⟩
  · cases hinside
    obtain ⟨id', harrives⟩ := hopen (.inr (.inl ⟨hcolumns, rfl⟩))
    rw [hcolumns] at harrives ⊢
    exact enters_part (.columns id' _) harrives rfl rfl (by decide) (takesBlanks_columnGroup rfl)
      fun b hb ↦ hb.inMode_endTag_columnGroup
  · cases hinside
    obtain ⟨id', harrives⟩ := hopen (.inr (.inr ⟨hgroup, rfl⟩))
    exact enters_part (.rowGroup id' _ hgroup) harrives rfl rfl
      ((show ["tbody", "tfoot", "thead"] ⊆ modalTags by decide) hgroup)
      (takesBlanks_tableBody hgroup) fun b hb ↦ hb.inMode_endTag_tableBody hgroup

/-- In a section a row is entered. -/
theorem enters_of_rowGroup {id : Nat} {stack : List OpenElement}
    (hgroup : name ∈ ["tbody", "tfoot", "thead"])
    (hinside : rowGroup.inside w.foreign tag.name = some inner)
    (hwritten : Token.Written (.startTag tag) cs)
    (h : Arrives (Nested w .tableBody (⟨id, ⟨.html, name⟩⟩ :: stack)) isTableBlank ms (cs ++ rest)
      final) :
    Enters w tag.name rowGroup inner (Nested w .tableBody (⟨id, ⟨.html, name⟩⟩ :: stack)) ms rest
      final := by
  simp only [inside] at hinside
  split_ifs at hinside with hrow
  cases hinside
  have helement : OpenElement.isHtmlIn ⟨id, ⟨.html, name⟩⟩ ["tbody", "tfoot", "thead"] = true :=
    Bool.and_eq_true_iff.2 ⟨rfl, decide_eq_true hgroup⟩
  obtain ⟨id', harrives⟩ := h.openPart
    (OpenElement.isModal_of_isHtmlIn helement (by decide)) rfl (takesBlanks_tableBody hgroup)
    hwritten fun b hb ↦ hb.exists_inMode_startTag_tableBody helement hrow
  rw [hrow] at harrives ⊢
  exact enters_part (.row id' _) harrives rfl rfl (by decide) takesBlanks_row
    fun b hb ↦ hb.inMode_endTag_row

/-- In a row a cell is entered. -/
theorem enters_of_row {id : Nat} {stack : List OpenElement}
    (hinside : row.inside w.foreign tag.name = some inner)
    (hwritten : Token.Written (.startTag tag) cs)
    (h : Arrives (Nested w .row (⟨id, ⟨.html, "tr"⟩⟩ :: stack)) isTableBlank ms (cs ++ rest)
      final) :
    Enters w tag.name row inner (Nested w .row (⟨id, ⟨.html, "tr"⟩⟩ :: stack)) ms rest final := by
  simp only [inside] at hinside
  split_ifs at hinside with hcell
  cases hinside
  obtain ⟨id', harrives⟩ := h.openPart (OpenElement.isModal_mk (by decide)) rfl takesBlanks_row
    hwritten fun b hb ↦ hb.exists_inMode_startTag_row rfl
      ((show ["td", "th"] ⊆ ["th", "td"] by decide) hcell)
  have hmode : contentMode ⟨id', ⟨.html, tag.name⟩⟩ = .cell :=
    if_pos (Bool.and_eq_true_iff.2 ⟨rfl, decide_eq_true hcell⟩)
  have hafter : modeAfter tag.name = .row :=
    if_neg ((show ∀ name ∈ ["td", "th"], name ≠ "caption" by decide) _ hcell)
  exact enters_content harrives rfl (List.mem_cons_of_mem _ hcell) hmode hafter
    ⟨_, List.mem_cons_self, OpenElement.isModal_mk (by decide)⟩

/-- An element that makes a place of its own is entered. -/
theorem Reads.enters (hreads : context.Reads w inv)
    (hinside : context.inside w.foreign tag.name = some inner) (hne : inner ≠ context)
    (hwritten : Token.Written (.startTag tag) cs)
    (h : Arrives inv context.allows ms (cs ++ rest) final) :
    Enters w tag.name context inner inv ms rest final := by
  cases hreads with
  | content hseat =>
    simp only [inside] at hinside
    split_ifs at hinside with htable hselect hmodal
    · cases hinside
      obtain ⟨id, s, hrests, harrives⟩ := h.openTable htable hwritten
      refine ⟨_, .table id s, harrives, fun hclosing h ↦ ?_⟩
      exact h.closeTable hseat hrests (htable ▸ hclosing)
    · cases hinside
      refine ⟨_, .options hseat, h.openSelection hselect.2 hselect.1 hwritten, fun hclosing h ↦ ?_⟩
      exact h.closeSelection hseat (hselect.1 ▸ hclosing)
    · cases hinside
      exact absurd rfl hne
  | table id stack => exact enters_of_table hinside hwritten h
  | rowGroup id stack hgroup => exact enters_of_rowGroup hgroup hinside hwritten h
  | row id stack => exact enters_of_row hinside hwritten h
  | columns id stack =>
    simp only [inside] at hinside
    split_ifs at hinside
    cases hinside
    exact absurd rfl hne
  | options hseat =>
    simp only [inside] at hinside
    split_ifs at hinside
    cases hinside
    exact absurd rfl hne

end Context

end NotebookTree.Html
