import Mathlib.Data.List.Nodup
import NotebookTree.Proofs.Html.Frame.Basic

/-!
# Tags in a framed builder

Whichever elements the tags in the content of a cell open and close, the cell stays open: closing a
formatting element with a special element inside it moves elements above the cell only, and the
searches of the other tags end at the cell.
-/

namespace NotebookTree.Html.Builder

variable {w : Watch} {mode : Mode} {ms : List Mark} {b : Builder} {holder : OpenElement}
  {below : List OpenElement}

/-! ## Closing formatting elements -/

/-- No two open elements have the same number. -/
theorem Steady.nodup_ids (h : b.Steady w mode ms) : (b.stack.map (·.id)).Nodup := by
  have hopen := h.nodup_spine.sublist h.openIds_sublist
  rw [openIds, List.map_reverse] at hopen
  exact List.nodup_reverse.1 hopen

/-- The walk down the stack changes formatting elements only, and keeps ordinary elements. -/
structure Walk.Frames (holder : OpenElement) (below : List OpenElement) (b : Builder)
    (walk : Walk) : Prop where
  framed : walk.builder.Framed holder below
  stack_eq : walk.builder.stack = b.stack
  kept : ∀ element ∈ walk.kept, element.isModal = false

namespace Walk.Frames

variable {walk : Walk}

theorem forget (h : walk.Frames holder below b) (id : Nat) :
    Frames holder below b { walk with builder := walk.builder.removeFormatting id } :=
  ⟨h.framed.removeFormatting id, h.stack_eq, h.kept⟩

theorem renew (h : walk.Frames holder below b) {tag : Tag}
    (htag : isModalName tag.name = false) (old : Nat) (subtree : Dom) (bookmark : Option Nat) :
    Frames holder below b
      { builder := { walk.builder with
          nextId := walk.builder.nextId + 2
          formatting := walk.builder.formatting.map fun entry ↦
            if entry.id? == some old then .element walk.builder.nextId tag else entry }
        kept := ⟨walk.builder.nextId, ⟨.html, tag.name⟩⟩ :: walk.kept
        subtree, bookmark } where
  framed := by
    have hgrow := h.framed.free.grow walk.builder.tree
      (Nat.le_add_right walk.builder.nextId 2) walk.builder.stack
    refine ⟨h.framed.isHolder, h.framed.rests, { hgrow with formatting := fun entry hmem ↦ ?_ }⟩
    obtain ⟨before, hbefore, rfl⟩ := List.mem_map.1 hmem
    split
    · exact ⟨htag, h.framed.free.isFree_nextId⟩
    · exact hgrow.formatting before hbefore
  stack_eq := h.stack_eq
  kept := List.forall_mem_cons.2 ⟨htag, h.kept⟩

theorem walkDown (h : walk.Frames holder below b) (passed : Nat) (between : List OpenElement) :
    (walkDown passed walk between).Frames holder below b := by
  induction between generalizing passed walk with
  | nil => exact h
  | cons element rest ih =>
    unfold Builder.walkDown
    dsimp only
    split
    · next id tag hfound =>
      obtain ⟨htag, -⟩ := h.framed.free.formatting _ (List.mem_of_find?_eq_some hfound)
      split
      · exact ih (h.forget element.id) _
      · exact ih (h.renew htag element.id _ _) _
    · exact ih h _

end Walk.Frames

namespace Framed

/-- A block above the holder moves to another place above the holder. -/
theorem moveBlock {walk : Walk} {formatting block : OpenElement} {tag : Tag}
    {top above rest : List OpenElement} (htag : isModalName tag.name = false)
    (hwalk : walk.Frames holder below b)
    (hstack : b.stack.dropWhile (·.id != formatting.id) = formatting :: above ++ rest)
    (hopen : ∀ element ∈ top ++ block :: formatting :: above, element.isModal = false)
    (hrest : Thinned (holder :: below) rest)
    (hfree : IsFree (holder :: below) b.nextId formatting.id)
    (hblock : ∀ element ∈ rest, element.id ≠ block.id) (others : List OpenElement) :
    (Builder.moveBlock walk formatting.id tag block top others).Framed holder below := by
  obtain ⟨builder, kept, subtree, bookmark⟩ := walk
  obtain ⟨hframed, hsame, hkept⟩ := hwalk
  dsimp only at hframed hsame hkept
  unfold Builder.moveBlock
  dsimp only
  rw [hsame, hstack]
  obtain ⟨tree, hinsert⟩ := exists_insertAt_eq_withTree
    (b := { builder with stack := top ++ block :: kept.reverse ++ (formatting :: above ++ rest) })
    (placeIn { builder with stack := top ++ block :: kept.reverse ++ (formatting :: above ++ rest) }
      (others.headD ⟨0, ⟨.html, "html"⟩⟩)) subtree
  rw [hinsert]
  have hfreeNew := hframed.free.isFree_nextId
  refine ⟨hframed.isHolder, ?_, ?_⟩
  · show Rests (holder :: below) (movedStack formatting.id block.id
      ⟨builder.nextId, ⟨.html, tag.name⟩⟩
      (top ++ block :: kept.reverse ++ (formatting :: above ++ rest)))
    have hself : (rest.filter (·.id != formatting.id)).flatMap (fun element ↦
        if element.id == block.id then
          [(⟨builder.nextId, ⟨.html, tag.name⟩⟩ : OpenElement), element] else [element]) =
        rest.filter (·.id != formatting.id) := by
      refine (List.flatMap_congr fun element hmem ↦ ?_).trans (List.flatMap_singleton' _)
      exact if_neg (by simpa using hblock element (List.mem_filter.1 hmem).1)
    have hsplit : movedStack formatting.id block.id ⟨builder.nextId, ⟨.html, tag.name⟩⟩
        (top ++ block :: kept.reverse ++ (formatting :: above ++ rest)) =
        movedStack formatting.id block.id ⟨builder.nextId, ⟨.html, tag.name⟩⟩
          (top ++ block :: kept.reverse ++ formatting :: above) ++
        rest.filter (·.id != formatting.id) := by
      rw [← List.append_assoc, movedStack, List.filter_append, List.flatMap_append, hself]
      rfl
    rw [hsplit]
    refine ⟨_, _, rfl, forall_mem_movedStack (htag) ?_ _ _,
      hrest.filter_id hfree.ne⟩
    intro element hmem
    simp only [List.mem_append, List.mem_cons, List.mem_reverse] at hmem hopen
    rcases hmem with (hmem | hmem | hmem) | hmem
    · exact hopen element (.inl hmem)
    · exact hopen element (.inr (.inl hmem))
    · exact hkept element hmem
    · exact hopen element (.inr (.inr hmem))
  · have hgrow := hframed.free.grow builder.tree (Nat.le_add_right builder.nextId 2) builder.stack
    have hnew : FormattingEntry.IsFree (holder :: below) (builder.nextId + 2)
        (.element builder.nextId tag) := ⟨htag, hfreeNew⟩
    exact { hgrow with formatting := forall_mem_replaceFormatting hnew hgrow.formatting _ _ }

/-- A formatting element within its scope lies above the holder, and so does all above it. -/
theorem exists_append_of_enclosed (h : b.Framed holder below) {formatting : OpenElement} {tag : Tag}
    {above under : List OpenElement} (henclosed : b.Enclosed formatting tag above under) :
    ∃ between rest, under = between ++ rest ∧
      (∀ element ∈ above ++ formatting :: between, element.isModal = false) ∧
      Thinned (holder :: below) rest := by
  have hne : formatting ≠ holder := fun heq ↦
    (h.free.formatting _ henclosed.entry_mem).2.ne holder List.mem_cons_self
      (OpenElement.isModal_of_isHtmlIn h.isHolder (by decide)) (congrArg OpenElement.id heq.symm)
  obtain ⟨upper, rest, hstack, hupper, hrest⟩ := h.rests
  obtain ⟨below', rfl⟩ := hrest.exists_eq_holder h.isHolder
  rw [henclosed.stack_eq] at hstack
  rcases List.append_eq_append_iff.1 hstack with ⟨more, rfl, hmore⟩ | ⟨more, rfl, hmore⟩
  · cases more with
    | nil => exact absurd (List.cons.inj hmore).1 hne
    | cons first between =>
      obtain ⟨rfl, rfl⟩ := List.cons.inj hmore
      exact ⟨between, holder :: below', rfl, hupper, hrest⟩
  · cases more with
    | nil => exact absurd (List.cons.inj hmore).1.symm hne
    | cons first more =>
      -- The holder would stand above the formatting element, but it bounds the scope.
      obtain rfl := (List.cons.inj hmore).1
      have hscope := henclosed.scope_eq holder (by simp)
      rw [defaultScope_of_isHolder holder h.isHolder] at hscope
      cases hscope

/-- The furthest block is moved above the holder. -/
theorem moveFurthestBlock (h : b.Framed holder below) (hids : (b.stack.map (·.id)).Nodup)
    {formatting block : OpenElement} {tag : Tag} {above under : List OpenElement} {found rest : Dom}
    (henclosed : b.Enclosed formatting tag above under) (hblock : block ∈ above)
    (between : List OpenElement) :
    (Builder.moveBlock (Builder.walkDown 0 ⟨{ b with tree := rest }, [], found, none⟩ between)
      formatting.id tag block (above.takeWhile (·.id != block.id)) under).Framed holder below := by
  obtain ⟨htag, hfree⟩ := h.free.formatting _ henclosed.entry_mem
  obtain ⟨inner, outer, rfl, hordinary, hthinned⟩ := h.exists_append_of_enclosed henclosed
  have hstart : Walk.Frames holder below b ⟨{ b with tree := rest }, [], found, none⟩ :=
    ⟨⟨h.isHolder, h.rests, { h.free with }⟩, rfl, List.forall_mem_nil _⟩
  rw [List.forall_mem_append] at hordinary
  refine moveBlock htag (hstart.walkDown 0 between) henclosed.dropWhile_eq ?_ hthinned hfree ?_ _
  · refine List.forall_mem_append.2 ⟨fun element hmem ↦ ?_, List.forall_mem_cons.2
      ⟨hordinary.1 block hblock, hordinary.2⟩⟩
    exact hordinary.1 element ((List.takeWhile_sublist _).subset hmem)
  · -- The block is open above the holder, so its number is not met again below.
    intro element hmem heq
    rw [henclosed.stack_eq, List.map_append, List.nodup_append] at hids
    exact hids.2.2 _ (List.mem_map_of_mem hblock) _ (List.mem_map_of_mem
      (List.mem_cons_of_mem _ (List.mem_append_right _ hmem))) heq.symm

theorem of_round (h : b.Framed holder below) (hids : (b.stack.map (·.id)).Nodup) {name : String}
    (hname : name ∉ holderTags) {b' : Builder} (hround : Round name b b') :
    b'.Framed holder below := by
  cases hround with
  | pop hcurrent => exact h.pop hname hcurrent
  | forget id => exact h.removeFormatting id
  | closeOrdinary => exact h.closeOrdinary hname
  | close henclosed =>
    obtain ⟨between, rest, hunder, hordinary, hthinned⟩ := h.exists_append_of_enclosed henclosed
    rw [List.forall_mem_append, List.forall_mem_cons] at hordinary
    exact (h.removeFormatting _).withStack ⟨between, rest, hunder, hordinary.2.2, hthinned⟩
  | moveBlock henclosed hblock _ => exact h.moveFurthestBlock hids henclosed hblock _

/-- The numbers of the open elements stay distinct as the builder stays steady. -/
theorem closeFormatting (h : b.Framed holder below) (hsteady : b.Steady w mode ms) {name : String}
    (hname : name ∉ holderTags) : (b.closeFormatting name).Framed holder below := by
  have hstep (c c' : Builder) (hround : Round name c c')
      (hbefore : c.Steady w mode ms ∧ c.Framed holder below) :
      c'.Steady w mode ms ∧ c'.Framed holder below :=
    ⟨hbefore.1.of_round hround, hbefore.2.of_round hbefore.1.nodup_ids hname hround⟩
  exact (keeps_of_reflTransGen (rounds_closeFormatting b name) ⟨hsteady, h⟩ hstep).2

/-! ## Moves in a body -/

variable {b' : Builder} {token : Token}

/-- The form that is opened has a free number. -/
theorem openForm (h : b.Framed holder below) {tag : Tag} (hname : isModalName tag.name = false) :
    Framed holder below { b.openHtml tag with form := some b.nextId } := by
  refine (h.openHtml hname).withForm fun id hid ↦ ?_
  obtain rfl := Option.some.inj hid
  rw [nextId_openHtml]
  exact h.free.isFree_nextId

/-- A move in a body leaves the holder open, unless it is for a tag by which the mode is set. -/
theorem of_bodyMove (h : b.Framed holder below) (hsteady : b.Steady w mode ms)
    (hmove : BodyMove token b b') (htoken : token.IsOrdinary) : b'.Framed holder below := by
  cases hmove with
  | close hcloses => exact h.close hcloses
  | closeOrdinary _ name =>
    exact h.closeOrdinary (not_mem_of_isModalName_eq_false htoken (by decide))
  | closeFormatting _ _ hname =>
    exact h.closeFormatting hsteady
      ((show ∀ name ∈ formattingTags, name ∉ holderTags by decide) _ hname)
  | closeLink hentry =>
    exact ((h.closeFormatting hsteady (by decide)).removeFormatting _).removeOpen
      (h.free.formatting _ hentry).2.ne
  | closeForm hform => exact (h.removeOpen (h.free.form _ hform).ne).withForm nofun
  | forgetForm => exact h.withForm nofun
  | closeTemplate hopen => exact absurd (hsteady.not_isOpen_template.symm.trans hopen) (by decide)
  | openHtml htag _ => exact h.openHtml (htoken.isModalName_eq_false htag)
  | addHtml _ _ => exact h.addHtml _
  | openForm _ => exact h.openForm htoken
  | openForeign _ _ => exact h.openForeign _ htoken
  | reopenFormatting => exact h.reopenFormatting
  | openFormatting _ => exact h.openFormatting htoken
  | pushMarker => exact h.pushMarker
  | clearToMarker => exact h.clearToMarker
  | set _ hagrees => exact h.of_agrees hagrees

/-- The builder stays steady on the way, so the numbers of the open elements stay distinct. -/
theorem of_bodyMoves (h : b.Framed holder below) (hsteady : b.Steady w mode ms)
    (hmoves : BodyMoves token b b') (hspared : token.Spared w) (htoken : token.IsOrdinary) :
    b'.Framed holder below := by
  have hstep (c c' : Builder) (hmove : BodyMove token c c')
      (hbefore : c.Steady w mode ms ∧ c.Framed holder below) :
      c'.Steady w mode ms ∧ c'.Framed holder below :=
    ⟨hbefore.1.of_bodyMove hmove hspared, hbefore.2.of_bodyMove hbefore.1 hmove htoken⟩
  exact (keeps_of_reflTransGen hmoves ⟨hsteady, h⟩ hstep).2

/-- An opening tag in a body, but for the altering ones, leaves the holder open. -/
theorem bodyStart (h : b.Framed holder below) (hsteady : b.Steady w mode ms) {tag : Tag}
    (htag : w.Spares tag.name) (hname : isModalName tag.name = false) :
    (b.bodyStart tag).Framed holder below :=
  h.of_bodyMoves hsteady (bodyMoves_bodyStart b tag) htag hname

/-- An end tag in a body leaves the holder open, unless it is one that a mode treats. -/
theorem bodyEnd (h : b.Framed holder below) (hsteady : b.Steady w mode ms) {name : String}
    (hname : isModalName name = false) : (b.bodyEnd name).Framed holder below :=
  h.of_bodyMoves hsteady (bodyMoves_bodyEnd b name) trivial hname

/-! ## Foreign content -/

theorem leaveForeign (h : b.Framed holder below) : b.leaveForeign.Framed holder below := by
  refine h.popWhile ?_
  have hholder := h.isHolder
  rw [OpenElement.isHtmlIn, Bool.and_eq_true] at hholder
  rw [hholder.1, Bool.true_or, Bool.true_or, Bool.not_true]

/-- The search for a foreign element ends at the holder, which is none. -/
theorem foreignEnd_search {name : String} {above rest : List OpenElement} {isFirst : Bool}
    (hhtml : holder.name.vocabulary = .html) (hfirst : isFirst = true → above ≠ [])
    {stack : List OpenElement}
    (h : foreignEnd.search name (above ++ holder :: rest) isFirst = some (some stack)) :
    ∃ above', stack = above' ++ holder :: rest ∧ above'.Sublist above := by
  induction above generalizing isFirst with
  | nil =>
    obtain rfl : isFirst = false := by simpa using hfirst
    cases rest with
    | nil => simp [foreignEnd.search] at h
    | cons next more => simp [foreignEnd.search, hhtml] at h
  | cons element above ih =>
    obtain ⟨next, more, htail⟩ : ∃ next more, above ++ holder :: rest = next :: more :=
      List.exists_cons_of_ne_nil (by simp)
    rw [List.cons_append, htail, foreignEnd.search] at h
    · split at h
      · cases h
      · split at h
        · cases h
          exact ⟨above, htail.symm, List.sublist_cons_self _ _⟩
        · rw [← htail] at h
          obtain ⟨above', hstack, hsublist⟩ := ih (fun heq ↦ absurd heq Bool.false_ne_true) h
          exact ⟨above', hstack, hsublist.trans (List.sublist_cons_self _ _)⟩
    · simp

/-- In foreign content an element is open above the holder. -/
theorem inForeign_endTag (h : b.Framed holder below) (hsteady : b.Steady w mode ms) {name : String}
    (hname : isModalName name = false) (hmode : mode.TreatsAsBody (.endTag name))
    (hforeign : b.isForeign (.endTag name) = true) :
    ∃ b' : Builder, b.inForeign (.endTag name) = .done b' ∧ b'.Framed holder below := by
  unfold inForeign foreignEnd
  dsimp only
  split
  · exact ⟨_, hmode _ hsteady.leaveForeign.mode_eq,
      h.leaveForeign.bodyEnd hsteady.leaveForeign hname⟩
  · split
    · exact ⟨_, hmode _ hsteady.mode_eq, h.bodyEnd hsteady hname⟩
    · next stack hstack =>
      obtain ⟨above, rest, heq, habove, hrest⟩ := h.rests
      obtain ⟨below', rfl⟩ := hrest.exists_eq_holder h.isHolder
      have hhtml : holder.name.vocabulary = .html := by
        have hholder := h.isHolder
        rw [OpenElement.isHtmlIn, Bool.and_eq_true] at hholder
        exact beq_iff_eq.1 hholder.1
      rw [heq] at hstack
      have hne : above ≠ [] := by
        rintro rfl
        simp [isForeign, current, heq, hhtml] at hforeign
      obtain ⟨above', rfl, hsublist⟩ := foreignEnd_search hhtml (fun _ ↦ hne) hstack
      exact ⟨_, rfl, h.withStack ⟨above', _, rfl,
        fun element hmem ↦ habove element (hsublist.subset hmem), hrest⟩⟩
    · exact ⟨_, rfl, h⟩

theorem inForeign_startTag (h : b.Framed holder below) (hsteady : b.Steady w mode ms) {tag : Tag}
    (htag : w.Spares tag.name) (hname : isModalName tag.name = false)
    (hmode : mode.TreatsAsBody (.startTag tag)) :
    ∃ b' : Builder, b.inForeign (.startTag tag) = .done b' ∧ b'.Framed holder below := by
  unfold inForeign
  dsimp only
  split
  · exact ⟨_, hmode _ hsteady.leaveForeign.mode_eq,
      h.leaveForeign.bodyStart hsteady.leaveForeign htag hname⟩
  · exact ⟨_, rfl, h.openForeign _ hname⟩

/-! ## Whole tokens -/

/-- A token that is dealt with at once, in foreign content and in a body, is accepted so. -/
theorem accept (h : b.Steady w mode ms) {token : Token} (hmode : mode.TreatsAsBody token)
    (hdoctype : token ≠ .doctype) (hfault : token ≠ .fault)
    (hforeign : b.isForeign token = true →
      ∃ b' : Builder, b.inForeign token = .done b' ∧ b'.Framed holder below)
    (hbody : (b.inBody token).Framed holder below) : (b.accept token).Framed holder below := by
  obtain ⟨b', hstep, hframed⟩ : ∃ b' : Builder,
      (if b.isForeign token then b.inForeign token else b.inMode token) = .done b' ∧
        b'.Framed holder below := by
    split
    · next hisForeign => exact hforeign hisForeign
    · exact ⟨_, hmode _ h.mode_eq, hbody⟩
  rwa [accept_eq h.dropLineFeed_eq token hdoctype hfault hstep]

theorem accept_startTag (h : b.Framed holder below) (hsteady : b.Steady w mode ms) {tag : Tag}
    (htag : w.Spares tag.name) (hname : isModalName tag.name = false)
    (hmode : mode.TreatsAsBody (.startTag tag)) :
    (b.accept (.startTag tag)).Framed holder below :=
  accept hsteady hmode nofun nofun (fun _ ↦ h.inForeign_startTag hsteady htag hname hmode)
    (h.bodyStart hsteady htag hname)

theorem accept_endTag (h : b.Framed holder below) (hsteady : b.Steady w mode ms) {name : String}
    (hname : isModalName name = false) (hmode : mode.TreatsAsBody (.endTag name)) :
    (b.accept (.endTag name)).Framed holder below :=
  accept hsteady hmode nofun nofun (h.inForeign_endTag hsteady hname hmode)
    (h.bodyEnd hsteady hname)

theorem accept_characters (h : b.Framed holder below) (hsteady : b.Steady w mode ms)
    {text : List Char} (hmode : mode.TreatsAsBody (.characters text)) :
    (b.accept (.characters text)).Framed holder below :=
  accept hsteady hmode nofun nofun (fun _ ↦ ⟨_, rfl, h.appendText text⟩)
    (h.reopenFormatting.appendText text)

end Framed

end NotebookTree.Html.Builder
