import NotebookTree.Proofs.Prose.Height
import NotebookTree.Prose.Compile

/-!
# Nesting of compiled prose

The nesting limit bounds the constructs that are open at a time and, for each list of siblings with
raw markup, the height of its fragment. It does not bound the height of what is compiled: an event
may add elements without opening a construct, a construct may become two elements, and each fragment
is measured from where it stands. `compileProse_heights` gives the height that results, and the
bound that holds in any case.
-/

namespace NotebookTree

open Outcome

/-! ## The height of drafts under construction -/

theorem Draft.heights_pushMerged (latest : List Draft) (draft : Draft) :
    heights (pushMerged latest draft) = max draft.height (heights latest) := by
  unfold pushMerged
  split
  · simp [heights, height]
  · simp [heights, height]
  · rfl

namespace Assembly

open Draft (height heights)

/-- The contents of open constructs leave room for two elements for each construct around them. -/
def FramesFit (bound : Nat) : List Frame → Prop
  | [] => True
  | frame :: rest =>
    heights frame.children + 2 * (rest.length + 1) ≤ bound ∧ FramesFit bound rest

/-- No construct is open beyond the limit, and no draft is higher than two elements for each
construct that may be open and two more. -/
structure Fits (a : Assembly) : Prop where
  length_le : a.frames.length ≤ a.limit
  frames : FramesFit (2 * a.limit + 2) a.frames
  top : heights a.top ≤ 2 * a.limit + 2

theorem fits_empty (limit : Nat) : (empty limit).Fits :=
  ⟨Nat.zero_le _, trivial, Nat.zero_le _⟩

theorem limit_push (a : Assembly) (draft : Draft) : (a.push draft).limit = a.limit := by
  unfold push
  split <;> rfl

theorem length_frames_push (a : Assembly) (draft : Draft) :
    (a.push draft).frames.length = a.frames.length := by
  unfold push
  split
  · next h => rw [h]
  · next h => rw [h]; rfl

theorem Fits.push {a : Assembly} (h : a.Fits) {draft : Draft}
    (hheight : draft.height + 2 * a.frames.length ≤ 2 * a.limit + 2) : (a.push draft).Fits := by
  obtain ⟨hlength, hframes, htop⟩ := h
  unfold Assembly.push
  split
  · next hnil =>
    refine ⟨hlength, hframes, ?_⟩
    simp only [Draft.heights_pushMerged]
    omega
  · next frame rest hcons =>
    rw [hcons] at hlength hframes hheight
    simp only [FramesFit, List.length_cons] at hlength hframes hheight
    refine ⟨hlength, ⟨?_, hframes.2⟩, htop⟩
    simp only [Draft.heights_pushMerged]
    omega

theorem Fits.foldl_push {drafts : List Draft} {a : Assembly} (h : a.Fits)
    (hheight : ∀ draft ∈ drafts, draft.height + 2 * a.frames.length ≤ 2 * a.limit + 2) :
    (drafts.foldl Assembly.push a).Fits := by
  induction drafts generalizing a with
  | nil => exact h
  | cons draft rest ih =>
    refine ih (h.push (hheight draft List.mem_cons_self)) ?_
    intro other hmem
    rw [limit_push, length_frames_push]
    exact hheight other (List.mem_cons_of_mem _ hmem)

theorem limit_foldl_push (drafts : List Draft) (a : Assembly) :
    (drafts.foldl Assembly.push a).limit = a.limit := by
  induction drafts generalizing a with
  | nil => rfl
  | cons draft rest ih => rw [List.foldl_cons, ih, limit_push]

theorem Fits.enter {a a' : Assembly} (h : a.Fits) {kind : FrameKind}
    (hok : a.enter kind = .ok a') : a'.Fits ∧ a'.limit = a.limit := by
  unfold Assembly.enter at hok
  split at hok
  · cases hok
  · next hroom =>
    cases hok
    have hlength : a.frames.length < a.limit := Nat.lt_of_not_le hroom
    refine ⟨⟨hlength, ⟨?_, h.frames⟩, h.top⟩, rfl⟩
    simp only [heights]
    omega

/-- A closed construct is at most two elements higher than its contents. -/
theorem height_le_of_mem_close {kind : FrameKind} {children : List Draft} {draft : Draft}
    (h : draft ∈ close kind children) : draft.height ≤ heights children + 2 := by
  cases kind with
  | transparent => exact (Draft.height_le_heights h).trans (Nat.le_add_right _ 2)
  | element tag attributes =>
    rw [close, List.mem_singleton] at h
    subst h
    simp only [height]
    omega
  | code language =>
    simp only [close, List.mem_singleton] at h
    subst h
    simp [Draft.ofTag, height, heights]
  | image attributes =>
    rw [close, List.mem_singleton] at h
    subst h
    simp [height, heights]
  | table =>
    rw [close, List.mem_singleton] at h
    subst h
    have hrows : heights (children.filter (!isTableHead ·)) ≤ heights children :=
      Draft.heights_le_of_subset (List.filter_subset_self _)
    have hcontents : heights (children.filter isTableHead ++
        (if (children.filter (!isTableHead ·)).isEmpty then []
          else [Draft.ofTag "tbody" (children.filter (!isTableHead ·))])) ≤
        heights children + 1 := by
      apply Draft.heights_le_iff.2
      intro child hmem
      rcases List.mem_append.1 hmem with hmem | hmem
      · have hchild := Draft.height_le_heights (List.mem_of_mem_filter hmem)
        omega
      · split at hmem
        · cases hmem
        · rw [List.mem_singleton.1 hmem, Draft.ofTag, height]
          omega
    rw [Draft.ofTag, height]
    exact Nat.add_le_add_right hcontents 1
  | tableHead =>
    rw [close, List.mem_singleton] at h
    subst h
    simp [Draft.ofTag, height, heights]

/-- Of a state only the limit, the open constructs and the finished drafts matter for the fit. -/
theorem Fits.congr {a a' : Assembly} (h : a.Fits) (hlimit : a'.limit = a.limit)
    (hframes : a'.frames = a.frames) (htop : a'.top = a.top) : a'.Fits := by
  obtain ⟨hlength, hfit, hheight⟩ := h
  refine ⟨?_, ?_, ?_⟩
  · rw [hframes, hlimit]
    exact hlength
  · rw [hframes, hlimit]
    exact hfit
  · rw [htop, hlimit]
    exact hheight

/-- A closed construct has room where it was opened. -/
theorem Fits.foldl_push_close {a : Assembly} (h : a.Fits) {frame : Frame}
    (hroom : heights frame.children + 2 * (a.frames.length + 1) ≤ 2 * a.limit + 2) :
    ((close frame.kind frame.children.reverse).foldl Assembly.push a).Fits ∧
      ((close frame.kind frame.children.reverse).foldl Assembly.push a).limit = a.limit := by
  refine ⟨h.foldl_push ?_, limit_foldl_push _ a⟩
  intro draft hmem
  have hclosed := height_le_of_mem_close hmem
  have hreverse : heights frame.children.reverse ≤ heights frame.children :=
    Draft.heights_le_of_subset (List.reverse_subset.2 (List.Subset.refl _))
  omega

theorem Fits.leave {a a' : Assembly} (h : a.Fits) (hok : a.leave = .ok a') :
    a'.Fits ∧ a'.limit = a.limit := by
  unfold Assembly.leave at hok
  split at hok
  · cases hok
  · next frame rest hcons =>
    obtain ⟨hlength, hframes, htop⟩ := h
    rw [hcons] at hlength hframes
    rw [List.length_cons] at hlength
    have hrest : Fits { a with frames := rest } :=
      ⟨(Nat.le_succ _).trans hlength, hframes.2, htop⟩
    cases hok
    split
    · have hreset : Fits { a with frames := rest, alignments := [] } := hrest.congr rfl rfl rfl
      exact hreset.foldl_push_close hframes.1
    · exact hrest.foldl_push_close hframes.1

theorem Fits.start {a a' : Assembly} (h : a.Fits) {construct : Markdown.Construct}
    (hok : a.start construct = .ok a') : a'.Fits ∧ a'.limit = a.limit := by
  cases construct with
  | table alignments =>
    have hreset : Fits { a with alignments } := h.congr rfl rfl rfl
    exact hreset.enter hok
  | tableHead =>
    have hreset : Fits { a with inHead := true, column := 0 } := h.congr rfl rfl rfl
    exact hreset.enter hok
  | tableRow =>
    have hreset : Fits { a with column := 0 } := h.congr rfl rfl rfl
    exact hreset.enter hok
  | _ => exact h.enter hok

theorem Fits.stop {a a' : Assembly} (h : a.Fits) {kind : Markdown.ConstructKind}
    (hok : a.stop kind = .ok a') : a'.Fits ∧ a'.limit = a.limit := by
  cases kind with
  | tableHead =>
    have hreset : Fits { a with inHead := false } := h.congr rfl rfl rfl
    exact hreset.leave hok
  | tableCell =>
    have hreset : Fits { a with column := a.column + 1 } := h.congr rfl rfl rfl
    exact hreset.leave hok
  | _ => exact h.leave hok

/-- An event that opens and closes nothing adds at most two elements. -/
theorem Fits.push_leaf {a : Assembly} (h : a.Fits) {draft : Draft} (hheight : draft.height ≤ 2) :
    (a.push draft).Fits ∧ (a.push draft).limit = a.limit := by
  refine ⟨h.push ?_, limit_push a draft⟩
  have hlength := h.length_le
  omega

theorem Fits.step {a a' : Assembly} (h : a.Fits) {event : Markdown.Event}
    (hok : a.step event = .ok a') : a'.Fits ∧ a'.limit = a.limit := by
  cases event with
  | start construct => exact h.start hok
  | stop kind => exact h.stop hok
  | text value | code value | html markup | inlineHtml markup | footnoteReference label
  | softBreak | hardBreak | rule | taskMarker checked =>
    cases hok
    apply h.push_leaf
    simp [Draft.ofTag, footnoteReference, taskBox, height, heights]
  | formula value =>
    cases hok
    exact ⟨h, rfl⟩

theorem Fits.foldlM_step {events : List Markdown.Event} {a a' : Assembly} (h : a.Fits)
    (hok : events.foldlM Assembly.step a = .ok a') : a'.Fits ∧ a'.limit = a.limit := by
  induction events generalizing a with
  | nil =>
    cases hok
    exact ⟨h, rfl⟩
  | cons event rest ih =>
    rw [List.foldlM_cons] at hok
    obtain ⟨next, hnext, hrest⟩ := bind_eq_ok.1 hok
    obtain ⟨hfits, hlimit⟩ := h.step hnext
    obtain ⟨hfits', hlimit'⟩ := ih hfits hrest
    exact ⟨hfits', hlimit'.trans hlimit⟩

end Assembly

/-- The drafts of a text have at most two levels for each construct that may be open, and two
more. -/
theorem Draft.heights_ofEvents_le {limit : Nat} {events : List Markdown.Event}
    {drafts : List Draft} (h : ofEvents limit events = .ok drafts) :
    heights drafts ≤ 2 * limit + 2 := by
  obtain ⟨a, hrun, hfinish⟩ := bind_eq_ok.1 h
  obtain ⟨hfits, hlimit⟩ := (Assembly.fits_empty limit).foldlM_step hrun
  unfold Assembly.finish at hfinish
  split at hfinish
  · cases hfinish
    have hreverse : heights a.top.reverse ≤ heights a.top :=
      heights_le_of_subset (List.reverse_subset.2 (List.Subset.refl _))
    have htop := hfits.top
    rw [hlimit] at htop
    exact hreverse.trans htop
  · cases hfinish

/-! ## Compiled prose -/

/-- The height of a compiled text is that of its drafts with their fragments. It keeps to the limit
exactly when these do, and to a square of the limit always. Without raw markup it is the height of
the drafts. -/
theorem compileProse_heights {options : CompileOptions} {text : String} {prose : Prose}
    (hlimit : 1 ≤ options.maxNestingDepth) (hok : compileProse options text = .ok prose) :
    ∃ frontmatter body drafts,
      Prose.splitFrontmatter options text = .ok (frontmatter, body) ∧
      Draft.ofEvents options.maxNestingDepth (Markdown.events options body) = .ok drafts ∧
      Node.heights prose.nodes = Draft.nestingAll options.maxNestingDepth drafts ∧
      (Node.heights prose.nodes ≤ options.maxNestingDepth ↔
        Draft.nestingAll options.maxNestingDepth drafts ≤ options.maxNestingDepth) ∧
      (Draft.haveRaw drafts = false →
        Node.heights prose.nodes = Draft.heights drafts ∧
          Node.heights prose.nodes ≤ 2 * options.maxNestingDepth + 2) ∧
      Node.heights prose.nodes ≤
        options.maxNestingDepth * (2 * options.maxNestingDepth + 3) := by
  obtain ⟨⟨frontmatter, body⟩, hsplit, hok⟩ := bind_eq_ok.1 hok
  obtain ⟨drafts, hdrafts, hok⟩ := bind_eq_ok.1 hok
  obtain ⟨nodes, hnodes, hprose⟩ := bind_eq_ok.1 hok
  cases hprose
  have hnesting : Node.heights nodes = Draft.nestingAll options.maxNestingDepth drafts :=
    Draft.heights_of_loweredAll (Draft.loweredAll_iff.2 hnodes)
  have hdraftHeight : Draft.heights drafts ≤ 2 * options.maxNestingDepth + 2 :=
    Draft.heights_ofEvents_le hdrafts
  refine ⟨frontmatter, body, drafts, hsplit, hdrafts, hnesting, ?_, ?_, ?_⟩
  · rw [hnesting]
  · intro hplain
    have hheights : Node.heights nodes = Draft.heights drafts :=
      hnesting.trans (Draft.nestingAll_of_haveRaw_eq_false _ hplain)
    exact ⟨hheights, hheights.trans_le hdraftHeight⟩
  · calc
      Node.heights nodes = Draft.nestingAll options.maxNestingDepth drafts := hnesting
      _ ≤ options.maxNestingDepth * (Draft.heights drafts + 1) := Draft.nestingAll_le hlimit drafts
      _ ≤ options.maxNestingDepth * (2 * options.maxNestingDepth + 3) :=
        Nat.mul_le_mul_left _ (Nat.succ_le_succ hdraftHeight)

theorem compileProse_heights_codeSpan :
    ∃ prose, 1 ≤ ({ maxNestingDepth := 1 } : CompileOptions).maxNestingDepth ∧
      compileProse { maxNestingDepth := 1 } "`x`" = .ok prose ∧
      Node.heights prose.nodes ≤ 5 := by
  have hisOk : (compileProse { maxNestingDepth := 1 } "`x`").isOk = true := by decide +kernel
  obtain ⟨prose, hok⟩ := exists_eq_ok hisOk
  obtain ⟨_, _, _, _, _, _, _, _, hbound⟩ := compileProse_heights (by decide) hok
  exact ⟨prose, by decide, hok, hbound⟩

/-- The limit does not bound the height of compiled prose: a code span in a paragraph is two
elements deep within a limit of one. -/
theorem not_heights_compileProse_le_maxNestingDepth :
    ¬∀ (options : CompileOptions) (text : String) (prose : Prose),
      1 ≤ options.maxNestingDepth → compileProse options text = .ok prose →
        Node.heights prose.nodes ≤ options.maxNestingDepth := by
  intro h
  have hheights : ((compileProse { maxNestingDepth := 1 } "`x`").toOption.map
      fun prose ↦ Node.heights prose.nodes) = some 2 := by
    decide +kernel
  obtain ⟨prose, hprose, htwo⟩ := Option.map_eq_some_iff.1 hheights
  have hok : compileProse { maxNestingDepth := 1 } "`x`" = .ok prose := by
    cases hresult : compileProse { maxNestingDepth := 1 } "`x`" with
    | error error =>
      rw [hresult] at hprose
      cases hprose
    | ok found =>
      rw [hresult] at hprose
      cases hprose
      rfl
  have hle := h { maxNestingDepth := 1 } "`x`" prose (by decide) hok
  rw [htwo] at hle
  exact absurd hle (by decide)

end NotebookTree
