import NotebookTree.Proofs.Prose.Nesting

/-!
# Larger nesting limits

A nesting limit has one effect: it ends a run by `CompileError.tooDeep`. A run with a larger limit
takes the same steps up to the point where the smaller limit would end it. So every outcome that a
limit has not caused is the outcome with each larger limit too, errors of other kinds included.
-/

namespace NotebookTree

open Outcome

/-- The second outcome is the first one, unless a nesting limit has caused the first. -/
def Kept {α : Type} (first second : Except CompileError α) : Prop :=
  (∀ depth, first ≠ .error (.tooDeep depth)) → second = first

namespace Kept

variable {α β γ : Type}

theorem refl (outcome : Except CompileError α) : Kept outcome outcome :=
  fun _ ↦ rfl

theorem tooDeep (depth : Nat) (second : Except CompileError α) :
    Kept (.error (.tooDeep depth)) second :=
  fun h ↦ absurd rfl (h depth)

/-- Two sequences keep an outcome if their first steps do and then the rest. The states between the
steps may differ by a change that the outcome does not show. -/
theorem bind_map {change : α → β} {first : Except CompileError α} {first' : Except CompileError β}
    {next : α → Except CompileError γ} {next' : β → Except CompileError γ}
    (hfirst : Kept (change <$> first) first')
    (hnext : ∀ value, first = .ok value → Kept (next value) (next' (change value))) :
    Kept (first >>= next) (first' >>= next') := by
  intro hcause
  cases first with
  | error error =>
    have herror : first' = .error error := hfirst fun depth h ↦ by
      cases h
      exact hcause depth rfl
    rw [herror]
    rfl
  | ok value =>
    have hvalue : first' = .ok (change value) := hfirst fun depth h ↦ by cases h
    rw [hvalue]
    exact hnext value rfl hcause

theorem bind {first first' : Except CompileError α} {next next' : α → Except CompileError β}
    (hfirst : Kept first first') (hnext : ∀ value, Kept (next value) (next' value)) :
    Kept (first >>= next) (first' >>= next') := by
  have hsame : Kept (id <$> first) first' := by rwa [id_map]
  exact hsame.bind_map fun value _ ↦ hnext value

end Kept

/-! ## Fragments -/

namespace Html

mutual

theorem kept_lowerNode {limit limit' : Nat} (hle : limit ≤ limit') :
    ∀ depth node, Kept (lowerNode limit depth node) (lowerNode limit' depth node)
  | _, .text _ => .refl _
  | _, .comment => .refl _
  | _, .contents _ => .refl _
  | depth, .element name attributes children => by
    rw [lowerNode, lowerNode]
    by_cases hdepth : limit < depth
    · rw [if_pos hdepth]
      exact .tooDeep _ _
    · have hdepth' : ¬limit' < depth := fun h ↦ hdepth (Nat.lt_of_le_of_lt hle h)
      rw [if_neg hdepth, if_neg hdepth']
      exact (kept_lowerNodes hle (depth + 1) children).bind fun _ ↦ .refl _

theorem kept_lowerNodes {limit limit' : Nat} (hle : limit ≤ limit') :
    ∀ depth tree, Kept (lowerNodes limit depth tree) (lowerNodes limit' depth tree)
  | _, [] => .refl _
  | depth, node :: rest => by
    rw [lowerNodes, lowerNodes]
    refine (kept_lowerNode hle depth node).bind fun first ↦ ?_
    exact (kept_lowerNodes hle depth rest).bind fun _ ↦ .refl _

end

theorem kept_compileFragment {limit limit' : Nat} (hle : limit ≤ limit') (html : String) :
    Kept (compileFragment limit html) (compileFragment limit' html) := by
  unfold compileFragment
  split
  · exact .refl _
  · exact kept_lowerNodes hle 1 _

end Html

/-! ## Drafts -/

namespace Draft

theorem kept_settle {limit limit' : Nat} (hle : limit ≤ limit') (drafts : List Draft)
    (lowered : List Node) :
    Kept (settle limit drafts lowered) (settle limit' drafts lowered) := by
  unfold settle
  split
  · exact .refl _
  · exact (Html.kept_compileFragment hle _).bind fun _ ↦ .refl _

mutual

theorem kept_lower {limit limit' : Nat} (hle : limit ≤ limit') :
    ∀ draft, Kept (lower limit draft) (lower limit' draft)
  | .text _ => .refl _
  | .raw _ => .refl _
  | .element tag attributes children => by
    rw [lower, lower]
    refine (kept_lowerEach hle children).bind fun lowered ↦ ?_
    exact (kept_settle hle children lowered).bind fun _ ↦ .refl _

theorem kept_lowerEach {limit limit' : Nat} (hle : limit ≤ limit') :
    ∀ drafts, Kept (lowerEach limit drafts) (lowerEach limit' drafts)
  | [] => .refl _
  | draft :: rest => by
    rw [lowerEach, lowerEach]
    refine (kept_lower hle draft).bind fun node ↦ ?_
    exact (kept_lowerEach hle rest).bind fun _ ↦ .refl _

end

theorem kept_lowerAll {limit limit' : Nat} (hle : limit ≤ limit') (drafts : List Draft) :
    Kept (lowerAll limit drafts) (lowerAll limit' drafts) :=
  (kept_lowerEach hle drafts).bind (kept_settle hle drafts)

end Draft

/-! ## Assemblies -/

namespace Assembly

/-- The same state with another limit. -/
def withLimit (limit : Nat) (a : Assembly) : Assembly :=
  { a with limit }

variable {limit : Nat}

theorem withLimit_push (a : Assembly) (draft : Draft) :
    (a.push draft).withLimit limit = (a.withLimit limit).push draft := by
  unfold push
  split
  · next h => simp only [withLimit, h]
  · next h => simp only [withLimit, h]

theorem withLimit_foldl_push (drafts : List Draft) (a : Assembly) :
    (drafts.foldl push a).withLimit limit = drafts.foldl push (a.withLimit limit) := by
  induction drafts generalizing a with
  | nil => rfl
  | cons draft rest ih => rw [List.foldl_cons, List.foldl_cons, ih, withLimit_push]

theorem frameKind_withLimit (a : Assembly) (construct : Markdown.Construct) :
    (a.withLimit limit).frameKind construct = a.frameKind construct := by
  cases construct <;> rfl

theorem kept_enter {a : Assembly} (hle : a.limit ≤ limit) (kind : FrameKind) :
    Kept (withLimit limit <$> a.enter kind) ((a.withLimit limit).enter kind) := by
  unfold enter
  by_cases hfull : a.limit ≤ a.frames.length
  · rw [if_pos hfull]
    exact .tooDeep _ _
  · have hroom : ¬(a.withLimit limit).limit ≤ (a.withLimit limit).frames.length :=
      fun h ↦ hfull (hle.trans h)
    rw [if_neg hfull, if_neg hroom]
    exact .refl _

theorem kept_start {a : Assembly} (hle : a.limit ≤ limit) (construct : Markdown.Construct) :
    Kept (withLimit limit <$> a.start construct) ((a.withLimit limit).start construct) := by
  unfold start
  rw [frameKind_withLimit]
  cases construct with
  | table alignments => exact kept_enter (a := { a with alignments }) hle _
  | tableHead => exact kept_enter (a := { a with inHead := true, column := 0 }) hle _
  | tableRow => exact kept_enter (a := { a with column := 0 }) hle _
  | _ => exact kept_enter hle _

theorem map_withLimit_leave (a : Assembly) :
    withLimit limit <$> a.leave = (a.withLimit limit).leave := by
  unfold leave
  cases hframes : a.frames with
  | nil => simp only [withLimit, hframes]; rfl
  | cons frame rest =>
    simp only [withLimit, hframes]
    refine congrArg Except.ok ?_
    rw [withLimit_foldl_push]
    cases frame.kind <;> rfl

theorem map_withLimit_stop (a : Assembly) (kind : Markdown.ConstructKind) :
    withLimit limit <$> a.stop kind = (a.withLimit limit).stop kind := by
  cases kind with
  | tableHead => exact map_withLimit_leave { a with inHead := false }
  | tableCell => exact map_withLimit_leave { a with column := a.column + 1 }
  | _ => exact map_withLimit_leave a

theorem kept_step {a : Assembly} (hle : a.limit ≤ limit) (event : Markdown.Event) :
    Kept (withLimit limit <$> a.step event) ((a.withLimit limit).step event) := by
  cases event with
  | start construct => exact kept_start hle construct
  | stop kind =>
    rw [step, step, map_withLimit_stop]
    exact .refl _
  | formula value => exact .refl _
  | text value | code value | html markup | inlineHtml markup | footnoteReference label
  | softBreak | hardBreak | rule | taskMarker checked =>
    simp only [step, ← withLimit_push]
    exact .refl _

theorem kept_foldlM_step {a : Assembly} (hfits : a.Fits) (hle : a.limit ≤ limit)
    (events : List Markdown.Event) :
    Kept (withLimit limit <$> events.foldlM step a)
      (events.foldlM step (a.withLimit limit)) := by
  induction events generalizing a with
  | nil => exact .refl _
  | cons event rest ih =>
    rw [List.foldlM_cons, List.foldlM_cons, map_bind]
    refine (kept_step hle event).bind_map fun next hnext ↦ ?_
    obtain ⟨hfits', hlimit⟩ := hfits.step hnext
    exact ih hfits' (hlimit ▸ hle)

end Assembly

theorem Draft.kept_ofEvents {limit limit' : Nat} (hle : limit ≤ limit')
    (events : List Markdown.Event) :
    Kept (ofEvents limit events) (ofEvents limit' events) := by
  have hrun := Assembly.kept_foldlM_step (Assembly.fits_empty limit) hle events
  exact hrun.bind_map fun _ _ ↦ .refl _

/-! ## Compiled prose -/

/-- An outcome that the nesting limit has not caused is the outcome with every larger limit, for a
Markdown text and for a fragment of HTML. -/
theorem compile_eq_of_limit_le (options : CompileOptions) {limit limit' : Nat}
    (hle : limit ≤ limit') :
    (∀ text,
      (∀ depth, compileProse { options with maxNestingDepth := limit } text ≠
        .error (.tooDeep depth)) →
      compileProse { options with maxNestingDepth := limit' } text =
        compileProse { options with maxNestingDepth := limit } text) ∧
    ∀ html,
      (∀ depth, Html.compileFragment limit html ≠ .error (.tooDeep depth)) →
      Html.compileFragment limit' html = Html.compileFragment limit html := by
  refine ⟨fun text ↦ ?_, Html.kept_compileFragment hle⟩
  -- Neither metadata nor events depend on the limit.
  have hsplit : Kept (Prose.splitFrontmatter { options with maxNestingDepth := limit } text)
      (Prose.splitFrontmatter { options with maxNestingDepth := limit' } text) := .refl _
  refine hsplit.bind fun (_, body) ↦ ?_
  refine (Draft.kept_ofEvents hle (Markdown.events options body)).bind fun drafts ↦ ?_
  exact (Draft.kept_lowerAll hle drafts).bind fun _ ↦ .refl _

theorem compile_eq_of_limit_le_emphasis :
    2 ≤ 3 ∧
      (∀ depth, compileProse { maxNestingDepth := 2 } "*b*" ≠ .error (.tooDeep depth)) ∧
      compileProse { maxNestingDepth := 3 } "*b*" = compileProse { maxNestingDepth := 2 } "*b*" ∧
      (∀ depth, Html.compileFragment 2 "<p><b>c</b></p>" ≠ .error (.tooDeep depth)) ∧
      Html.compileFragment 3 "<p><b>c</b></p>" = Html.compileFragment 2 "<p><b>c</b></p>" := by
  have hproseOk : (compileProse { maxNestingDepth := 2 } "*b*").isOk = true := by decide +kernel
  have hfragmentOk : (Html.compileFragment 2 "<p><b>c</b></p>").isOk = true := by decide +kernel
  have hprose : ∀ depth, compileProse { maxNestingDepth := 2 } "*b*" ≠
      .error (.tooDeep depth) := by
    obtain ⟨prose, hprose⟩ := exists_eq_ok hproseOk
    intro depth h
    rw [hprose] at h
    cases h
  have hfragment : ∀ depth, Html.compileFragment 2 "<p><b>c</b></p>" ≠
      .error (.tooDeep depth) := by
    obtain ⟨nodes, hnodes⟩ := exists_eq_ok hfragmentOk
    intro depth h
    rw [hnodes] at h
    cases h
  obtain ⟨hprose', hfragment'⟩ := compile_eq_of_limit_le {} (show 2 ≤ 3 by decide)
  exact ⟨by decide, hprose, hprose' _ hprose, hfragment, hfragment' _ hfragment⟩

end NotebookTree
