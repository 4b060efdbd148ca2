import NotebookTree.Proofs.Html.Apart.Building

/-!
# Closing formatting elements in a tidy builder

The furthest block above a formatting element is taken out of its family, where no text stands
right behind it. With renewed formatting elements around it, it is added to the family of an element
below the formatting element, which all of these are above, and one more renewed element takes over
its children.
-/

namespace NotebookTree.Html.Builder

variable {known : List Nat} {stack top below : List OpenElement} {block element : OpenElement}
  {next : Nat} {b : Builder}

/-! ## The elements above a formatting element -/

theorem isHtmlIn_eq_false_of_defaultScope (h : defaultScope element = false) :
    element.isHtmlIn ["html", "table", "template"] = false := by
  rw [defaultScope, Bool.or_eq_false_iff, Bool.or_eq_false_iff] at h
  by_contra hin
  have hscope : element.isHtmlIn scopeTags = true :=
    OpenElement.isHtmlIn_of_subset (by simpa using hin) (by decide)
  rw [h.1.1] at hscope
  cases hscope

theorem isFrame_eq_false_of_isModalName {name : String} (h : isModalName name = false) (id : Nat) :
    OpenElement.isFrame ⟨id, ⟨.html, name⟩⟩ = false := by
  rw [OpenElement.isFrame, OpenElement.isHtmlIn,
    decide_eq_false (not_mem_of_isModalName_eq_false h (by decide)), Bool.and_false]

/-- The furthest block moves above the renewed elements, and the formatting element is closed. -/
theorem movedStack_eq {kept : List OpenElement} {formatting new : OpenElement}
    (hformatting : ∀ x ∈ top ++ block :: kept.reverse ++ below, x.id ≠ formatting.id)
    (hblock : ∀ x ∈ top ++ (kept.reverse ++ below), x.id ≠ block.id) :
    movedStack formatting.id block.id new (top ++ block :: kept.reverse ++ formatting :: below) =
      top ++ new :: block :: (kept.reverse ++ below) := by
  have hfilter : (top ++ block :: kept.reverse ++ formatting :: below).filter
      (·.id != formatting.id) = top ++ block :: kept.reverse ++ below := by
    rw [List.filter_append, List.filter_cons_of_neg (by simp), ← List.filter_append,
      List.filter_eq_self]
    exact fun x hx ↦ by simpa using hformatting x hx
  have hself {elements : List OpenElement} (h : ∀ x ∈ elements, x.id ≠ block.id) :
      (elements.flatMap fun x ↦ if x.id == block.id then [new, x] else [x]) = elements := by
    refine (List.flatMap_congr fun x hx ↦ ?_).trans (List.flatMap_singleton' elements)
    exact if_neg (by simpa using h x hx)
  obtain ⟨htop, hrest⟩ := List.forall_mem_append.1 hblock
  rw [movedStack, hfilter, List.append_assoc, List.cons_append, List.flatMap_append,
    List.flatMap_cons, hself htop, hself hrest, if_pos (beq_self_eq_true block.id)]
  rfl

/-! ## Renewing the elements on the way -/

/-- The elements that are open above the formatting element after a walk that kept some. -/
def openAbove (top : List OpenElement) (block : OpenElement) (kept : List OpenElement) :
    List OpenElement :=
  top ++ block :: kept.reverse

theorem openAbove_cons (kept : List OpenElement) :
    openAbove top block (element :: kept) = openAbove top block kept ++ [element] := by
  simp [openAbove]

/-- The tree that is passed down, and the one that it will be added to, fit the elements that stay
open, of which it is one. -/
structure Walk.Tidy (known : List Nat) (b : Builder) (top below : List OpenElement)
    (block : OpenElement) (walk : Walk) : Prop where
  builder_eq : walk.builder =
    { b with nextId := walk.builder.nextId, formatting := walk.builder.formatting }
  le_nextId : b.nextId ≤ walk.builder.nextId
  le_kept : ∀ x ∈ walk.kept, b.nextId ≤ x.id
  frameless : ∀ x ∈ openAbove top block walk.kept, x.isFrame = false
  stacked : Stacked (openAbove top block walk.kept ++ below) walk.builder.nextId
  tree : b.tree.Families (Fits (openAbove top block walk.kept ++ below) walk.builder.nextId)
  subtree :
    walk.subtree.Families (Fits (openAbove top block walk.kept ++ below) walk.builder.nextId)
  child : ∃ x ∈ openAbove top block walk.kept, walk.subtree.head = .element x.id
  recalls : Recalls known (openAbove top block walk.kept ++ below) walk.builder.nextId
    walk.builder.formatting b.form

namespace Walk.Tidy

variable {walk : Walk}

theorem forget (h : walk.Tidy known b top below block) (id : Nat) :
    Walk.Tidy known b top below block
      { walk with builder := walk.builder.removeFormatting id } :=
  { h with
    builder_eq := by
      show walk.builder.removeFormatting id = _
      rw [h.builder_eq]
      rfl
    recalls := { h.recalls with
      formatting := fun entry hmem ↦ h.recalls.formatting entry (List.mem_filter.1 hmem).1 } }

theorem renew (h : walk.Tidy known b top below block) {tag : Tag}
    (htag : isModalName tag.name = false) (old : Nat) (bookmark : Option Nat) :
    Walk.Tidy known b top below block
      { builder := { walk.builder with
          nextId := walk.builder.nextId + 2
          formatting := walk.builder.formatting.map fun entry ↦
            if entry.id? == some old then .element walk.builder.nextId tag else entry }
        kept := ⟨walk.builder.nextId, ⟨.html, tag.name⟩⟩ :: walk.kept
        subtree := .element walk.builder.nextId ⟨.html, tag.name⟩ (htmlAttributes tag)
          [walk.subtree]
        bookmark } := by
  obtain ⟨hbuilder, hnext, hkept, hframeless, hstacked, htree, hsubtree, ⟨child, hchild, hhead⟩,
    hrecalls⟩ := h
  generalize hnew : (⟨walk.builder.nextId, ⟨.html, tag.name⟩⟩ : OpenElement) = new
  have hid : new.id = walk.builder.nextId := hnew ▸ rfl
  have hframe : new.isFrame = false := hnew ▸ isFrame_eq_false_of_isModalName htag _
  have hopened : openAbove top block (new :: walk.kept) = openAbove top block walk.kept ++ [new] :=
    openAbove_cons walk.kept
  generalize openAbove top block walk.kept = above at *
  have hstacked' : Stacked (above ++ new :: below) (walk.builder.nextId + 2) :=
    hstacked.insert_ordinary hid.ge (by rw [hid]) hframeless hframe
  have hmono (n : Nat) (heads : List Dom.Head)
      (hfits : Fits (above ++ below) walk.builder.nextId n heads) :
      Fits (above ++ new :: below) (walk.builder.nextId + 2) n heads :=
    hfits.insert hid.ge (Nat.le_add_right _ _)
  obtain ⟨hrecalls', hfree⟩ := hrecalls.insert hstacked htag
  rw [hnew] at hrecalls' hfree
  have hsingle := Fits.singleton hstacked' hchild (hframeless child hchild)
  rw [hid, ← hhead] at hsingle
  constructor
  · dsimp only
    rw [hbuilder]
  · exact Nat.le_add_right_of_le hnext
  · exact List.forall_mem_cons.2 ⟨hid ▸ hnext, hkept⟩
  all_goals
    dsimp only
    rw [hopened]
  · exact List.forall_mem_append.2 ⟨hframeless, List.forall_mem_singleton.2 hframe⟩
  · rwa [List.append_assoc, List.singleton_append]
  · rw [List.append_assoc, List.singleton_append]
    exact htree.mono hmono
  · rw [List.append_assoc, List.singleton_append]
    exact ⟨hsingle, hsubtree.mono hmono, trivial⟩
  · exact ⟨new, by simp, congrArg Dom.Head.element hid.symm⟩
  · rw [List.append_assoc, List.singleton_append]
    refine { hrecalls' with formatting := fun entry hmem ↦ ?_ }
    obtain ⟨before, hbefore, rfl⟩ := List.mem_map.1 hmem
    split
    · exact ⟨htag, hfree⟩
    · exact hrecalls'.formatting before hbefore

theorem walkDown (h : walk.Tidy known b top below block) (passed : Nat)
    (between : List OpenElement) :
    (walkDown passed walk between).Tidy known b top below block := by
  induction between generalizing passed walk with
  | nil => exact h
  | cons element below ih =>
    unfold Builder.walkDown
    dsimp only
    split
    · next id tag hfound =>
      have htag := h.recalls.formatting _ (List.mem_of_find?_eq_some hfound)
      split
      · exact ih (h.forget element.id) _
      · exact ih (h.renew htag.1 element.id _) _
    · exact ih h _

end Walk.Tidy

/-! ## Moving the furthest block -/

/-- The children of the block are handed over to a renewed element inside it. -/
theorem families_wrapChildren {tree : Dom} {new : OpenElement} {tag : Tag} {next' : Nat}
    (h : tree.Families (Fits (top ++ block :: below) next)) (hid : next ≤ new.id)
    (hnext : next ≤ next') (hframe : new.isFrame = false)
    (hstacked : Stacked (top ++ new :: block :: below) next') :
    (wrapChildren block.id new.id tag tree).Families
      (Fits (top ++ new :: block :: below) next') := by
  have hmono (n : Nat) (heads : List Dom.Head)
      (hfits : Fits (top ++ block :: below) next n heads) :
      Fits (top ++ new :: block :: below) next' n heads :=
    hfits.insert hid hnext
  have hsingle : Fits (top ++ new :: block :: below) next' block.id [.element new.id] := by
    have hassoc : top ++ new :: block :: below = (top ++ [new]) ++ block :: below := by simp
    rw [hassoc] at hstacked ⊢
    exact .singleton hstacked (by simp) hframe
  unfold wrapChildren
  cases hupdate : tree.update? block.id fun children ↦
      [Dom.element new.id ⟨.html, tag.name⟩ (htmlAttributes tag) children] with
  | none => exact h.mono hmono
  | some after =>
    refine (Dom.Families.update? hmono (fun children hfits hchildren ↦ ?_) h hupdate).1
    exact ⟨hsingle, ⟨hfits.handed hid hnext hstacked, hchildren.mono hmono⟩, trivial⟩

/-- An open element with all that is in it is added to one below the formatting element. -/
theorem families_insertAt_below {above : List OpenElement} {formatting : OpenElement} {node : Dom}
    (hstack : b.stack = above ++ formatting :: below) (habove : ∀ x ∈ above, x.isFrame = false)
    (hframe : formatting.isFrame = false) (hstacked : Stacked (above ++ below) next)
    (htree : b.tree.Families (Fits (above ++ below) next))
    (hnode : node.Families (Fits (above ++ below) next))
    (hchild : ∃ x ∈ above, node.head = .element x.id) :
    (b.insertAt (b.placeIn (below.headD ⟨0, ⟨.html, "html"⟩⟩)) node).tree.Families
      (Fits (above ++ below) next) := by
  obtain ⟨child, hchild, hhead⟩ := hchild
  have hsuits : (b.placeIn (below.headD ⟨0, ⟨.html, "html"⟩⟩)).Suits below := by
    have hsplit : b.stack = (above ++ [formatting]) ++ below := by simp [hstack]
    refine suits_placeIn_of_append hsplit ?_
    exact List.forall_mem_append.2 ⟨habove, List.forall_mem_singleton.2 hframe⟩
  have htable : ∀ x ∈ above, x.isHtml "table" = false := fun x hx ↦
    OpenElement.isHtml_eq_false (habove x hx) (by decide)
  refine families_insertAt _ htree (fun _ _ hfits ↦ hfits) hnode
    fun n heads heads' hmeets hgains hfits ↦ ?_
  refine hfits.gains_element hstacked hchild
    (List.pairwise_of_forall_mem_list fun x hx _ _ ↦ htable x hx) (fun hchildTable ↦ ?_)
    (hsuits.not_owns hstacked habove hfits hmeets) (hhead ▸ hgains)
  rw [htable child hchild] at hchildTable
  cases hchildTable

namespace Tidy

/-- The furthest block is moved out of the formatting element. -/
theorem moveBlock {walk : Walk} (h : walk.Tidy known b top below block) {formatting : OpenElement}
    {tag : Tag} (htag : isModalName tag.name = false) (hframe : formatting.isFrame = false)
    (hlt : formatting.id < b.nextId) (hne : ∀ x ∈ top ++ block :: below, x.id ≠ formatting.id)
    (hdrop : b.stack.dropWhile (·.id != formatting.id) = formatting :: below) :
    (Builder.moveBlock walk formatting.id tag block top below).Tidy known := by
  obtain ⟨builder, kept, subtree, bookmark⟩ := walk
  obtain ⟨hbuilder, hnext, hkept, hframeless, hstacked, htree, hsubtree, hchild, hrecalls⟩ := h
  dsimp only at *
  generalize builder.nextId = next at *
  generalize builder.formatting = entries at *
  subst hbuilder
  have hmoved := families_insertAt_below (b := { b with
      nextId := next, formatting := entries
      stack := top ++ block :: kept.reverse ++ formatting :: below })
    (show _ = openAbove top block kept ++ formatting :: below from rfl) hframeless hframe hstacked
    htree hsubtree hchild
  have hopened : openAbove top block kept ++ below = top ++ block :: (kept.reverse ++ below) := by
    simp [openAbove]
  rw [hopened] at hstacked hmoved hrecalls
  obtain ⟨hrecalls', hfree⟩ := hrecalls.insert hstacked htag
  generalize hnew : (⟨next, ⟨.html, tag.name⟩⟩ : OpenElement) = new at hrecalls' hfree
  have hid : new.id = next := hnew ▸ rfl
  have hnewFrame : new.isFrame = false := hnew ▸ isFrame_eq_false_of_isModalName htag _
  have hstacked' : Stacked (top ++ new :: block :: (kept.reverse ++ below)) (next + 2) := by
    refine hstacked.insert_ordinary hid.ge (by rw [hid]) (fun x hx ↦ hframeless x ?_) hnewFrame
    exact List.mem_append_left _ hx
  have hstack : movedStack formatting.id block.id new
      (top ++ block :: kept.reverse ++ formatting :: below) =
        top ++ new :: block :: (kept.reverse ++ below) := by
    refine movedStack_eq (fun x hx ↦ ?_) hstacked.id_ne_of_mem
    by_cases hx' : x ∈ kept
    · exact Nat.ne_of_gt (Nat.lt_of_lt_of_le hlt (hkept x hx'))
    · refine hne x ?_
      simpa [hx'] using hx
  unfold Builder.moveBlock
  dsimp only
  rw [hdrop]
  obtain ⟨moved, hinsert⟩ := exists_insertAt_eq_withTree (b := { b with
    nextId := next, formatting := entries
    stack := top ++ block :: kept.reverse ++ formatting :: below }) (placeIn { b with
    nextId := next, formatting := entries
    stack := top ++ block :: kept.reverse ++ formatting :: below }
      (below.headD ⟨0, ⟨.html, "html"⟩⟩)) subtree
  rw [hinsert] at hmoved ⊢
  have htidy : Tidy known { b with
      tree := wrapChildren block.id new.id tag moved
      nextId := next + 2
      formatting := replaceFormatting formatting.id bookmark (.element next tag) entries
      stack := movedStack formatting.id block.id new
        (top ++ block :: kept.reverse ++ formatting :: below) } := by
    rw [hstack]
    exact ⟨hstacked', families_wrapChildren hmoved hid.ge (Nat.le_add_right next 2) hnewFrame
      hstacked', { hrecalls' with formatting :=
        forall_mem_replaceFormatting ⟨htag, hfree⟩ hrecalls'.formatting formatting.id bookmark }⟩
  rw [hid] at htidy
  subst hnew
  exact htidy

/-- The furthest block is taken out, and moved after the walk over the elements below it. -/
theorem moveFurthestBlock (h : b.Tidy known) {formatting : OpenElement} {between : List OpenElement}
    {tag : Tag} {found rest : Dom} (htag : isModalName tag.name = false)
    (hframe : formatting.isFrame = false)
    (hframeless : ∀ x ∈ top ++ block :: between, x.isFrame = false)
    (hstack : b.stack = top ++ block :: between ++ formatting :: below)
    (hdrop : b.stack.dropWhile (·.id != formatting.id) = formatting :: below)
    (hdetach : b.tree.detach? block.id = some (found, rest)) :
    (Builder.moveBlock (Builder.walkDown 0 ⟨{ b with tree := rest }, [], found, none⟩ between)
      formatting.id tag block top below).Tidy known := by
  obtain ⟨hstacked, hfamilies, hrecalls⟩ := h
  have hblock : ∃ x ∈ b.stack, x.id = block.id ∧ x.isFrame = false :=
    ⟨block, by simp [hstack], rfl, hframeless block (by simp)⟩
  obtain ⟨⟨hfound, hhead⟩, hrest, -⟩ :=
    hfamilies.detach? (fun n newer older hfits ↦ hfits.loses hblock) hdetach
  have hsub : (openAbove top block [] ++ below).Sublist b.stack := by
    rw [hstack, openAbove, List.append_assoc, List.append_assoc]
    refine (List.Sublist.refl top).append (List.Sublist.cons_cons block ?_)
    exact (List.sublist_cons_self _ _).trans (List.sublist_append_right _ _)
  have hkept : ∀ x ∈ openAbove top block [], x.isFrame = false := fun x hx ↦
    hframeless x (by
      simp only [openAbove, List.reverse_nil, List.mem_append, List.mem_singleton] at hx
      simp only [List.mem_append, List.mem_cons]
      tauto)
  have habove : Stacked (top ++ block :: between ++ formatting :: below) b.nextId :=
    hstack ▸ hstacked
  have hstart : Walk.Tidy known { b with tree := rest } top below block
      ⟨{ b with tree := rest }, [], found, none⟩ := {
    builder_eq := rfl
    le_nextId := Nat.le_refl _
    le_kept := List.forall_mem_nil _
    frameless := hkept
    stacked := hstacked.sublist hsub (habove.append_right.tail.braced.append hkept)
    tree := hrest.mono fun _ _ hfits ↦ hfits.sublist hsub
    subtree := hfound.mono fun _ _ hfits ↦ hfits.sublist hsub
    child := ⟨block, by simp [openAbove], hhead⟩
    recalls := hrecalls.opened (Nat.le_refl _) fun x hx ↦ .inl (hsub.subset hx) }
  refine moveBlock (hstart.walkDown 0 between) htag hframe ?_ ?_ hdrop
  · exact hstacked.lt formatting (by simp [hstack]) _ formatting.owns_id
  · intro x hx
    rw [hstack] at hstacked
    refine hstacked.id_ne_of_mem x ?_
    simp only [List.mem_append, List.mem_cons] at hx ⊢
    tauto

/-- A formatting element is no frame, and so nothing is that stands above it within its scope. -/
theorem frameless_of_enclosed (h : b.Tidy known) {formatting : OpenElement} {tag : Tag}
    {above : List OpenElement} (henclosed : b.Enclosed formatting tag above below) :
    formatting.isFrame = false ∧ ∀ x ∈ above, x.isFrame = false := by
  have hframe : formatting.isFrame = false := by
    refine Bool.eq_false_iff.2 fun hframe ↦ ?_
    refine (h.recalls.formatting _ henclosed.entry_mem).2.ne formatting ?_
      (OpenElement.isModal_of_isFrame hframe) rfl
    rw [henclosed.stack_eq]
    simp
  exact ⟨hframe, Braced.isFrame_eq_false (henclosed.stack_eq ▸ h.stacked.braced) hframe fun x hx ↦
    isHtmlIn_eq_false_of_defaultScope (henclosed.scope_eq x hx)⟩

theorem of_round (h : b.Tidy known) {name : String} {b' : Builder} (hround : Round name b b') :
    b'.Tidy known := by
  cases hround with
  | pop _ => exact h.pop
  | forget id => exact h.removeFormatting id
  | closeOrdinary => exact h.closeOrdinary name
  | close henclosed => exact (h.removeFormatting _).close henclosed.suffix
  | @moveBlock formatting block tag above below found rest henclosed hblock hdetach =>
    have htag := (h.recalls.formatting _ henclosed.entry_mem).1
    obtain ⟨hframe, hframeless⟩ := h.frameless_of_enclosed henclosed
    obtain ⟨block', between, hdrop, hid, habove⟩ := exists_dropWhile_eq ⟨block, hblock, rfl⟩
    have hmem : ∀ x ∈ above, x ∈ b.stack := fun x hx ↦ by
      rw [henclosed.stack_eq]
      exact List.mem_append_left _ hx
    obtain rfl : block' = block := by
      refine h.stacked.eq_of_id_eq (hmem _ ?_) (hmem _ hblock) hid
      rw [habove]
      simp
    have hstack := henclosed.stack_eq
    rw [habove] at hstack hframeless
    rw [hdrop, List.tail_cons]
    exact h.moveFurthestBlock htag hframe hframeless hstack henclosed.dropWhile_eq hdetach

theorem closeFormatting (h : b.Tidy known) (name : String) : (b.closeFormatting name).Tidy known :=
  keeps_of_reflTransGen (rounds_closeFormatting b name) h fun _ _ hround hbefore ↦
    hbefore.of_round hround

/-- The number of a link is known while the link is closed. -/
theorem closeLink (h : b.Tidy known) {id : Nat} {tag : Tag}
    (hentry : .element id tag ∈ b.formatting) :
    (((b.closeFormatting "a").removeFormatting id).removeOpen id).Tidy known := by
  have hfree := (h.recalls.formatting _ hentry).2
  have hclosed := ((h.remember hfree).closeFormatting "a").removeFormatting id
  exact (hclosed.removeOpen (hclosed.recalls.known id List.mem_cons_self)).forget

end Tidy

end NotebookTree.Html.Builder
