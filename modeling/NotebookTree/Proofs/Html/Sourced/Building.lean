import NotebookTree.Proofs.Html.Adoption
import NotebookTree.Proofs.Html.Families
import NotebookTree.Proofs.Html.Lowering

/-!
# Where the attributes of elements come from

A tag that is read has attributes in lower case, each name once. An element carries the attributes
of such a tag, in the spelling of its vocabulary. A tree is sourced if all of its elements do, and a
builder if its tree is and its formatting elements, which may be opened again, have such tags too.

This module has the operations of a builder that insert nodes, and those on formatting elements. The
condition is on the tree and the formatting elements alone: what only closes elements or sets the
mode keeps it by definition.
-/

namespace NotebookTree.Html

/-- Attributes as a tag that is read has them: in lower case, each name once. -/
structure AreRead (entries : List (String × String)) : Prop where
  nodup : (entries.map Prod.fst).Nodup
  lower : ∀ entry ∈ entries, Text.lowerAsciiString entry.1 = entry.1

theorem areRead_nil : AreRead [] := ⟨List.nodup_nil, nofun⟩

/-- An attribute of a tag as an element of the vocabulary has it. -/
def attributeIn : Vocabulary → String × String → Attribute
  | .html, entry => ⟨none, entry.1, entry.2⟩
  | vocabulary, entry => Foreign.attributeOf vocabulary entry

theorem attributeIn_of_ne {vocabulary : Vocabulary} (h : vocabulary ≠ .html) :
    attributeIn vocabulary = Foreign.attributeOf vocabulary := by
  cases vocabulary with
  | html => exact absurd rfl h
  | svg => rfl
  | mathml => rfl

/-- An element has the attributes of a tag that is read. -/
def ElementName.Carries (name : ElementName) (attributes : List Attribute) : Prop :=
  ∃ entries, AreRead entries ∧ attributes = entries.map (attributeIn name.vocabulary)

theorem carries_htmlAttributes {tag : Tag} (h : AreRead tag.attributes) (name : String) :
    ElementName.Carries ⟨.html, name⟩ (Builder.htmlAttributes tag) :=
  ⟨tag.attributes, h, rfl⟩

/-! ## Trees -/

namespace Dom

mutual

/-- All elements of a tree have the attributes of tags that are read. -/
def Sourced : Dom → Prop
  | element _ name attributes children => name.Carries attributes ∧ SourcedAll children
  | text _ => True
  | comment => True
  | contents _ children => SourcedAll children

/-- All elements of the trees of a list have the attributes of tags that are read. -/
def SourcedAll : List Dom → Prop
  | [] => True
  | node :: rest => node.Sourced ∧ SourcedAll rest

end

theorem SourcedAll.push {node : Dom} {children : List Dom} (h : SourcedAll children)
    (hnode : node.Sourced) : SourcedAll (push node children) := by
  unfold Dom.push
  split
  · exact ⟨trivial, h.2⟩
  · exact ⟨hnode, h⟩

/-! ### Changes inside a tree -/

mutual

theorem Sourced.update? {id : Nat} {change : List Dom → List Dom}
    (hchange : ∀ children, SourcedAll children → SourcedAll (change children)) :
    ∀ {tree after : Dom}, tree.Sourced → Dom.update? id change tree = some after → after.Sourced
  | element n name attributes children, _, h, hafter => by
    rw [Dom.update?] at hafter
    split at hafter
    · cases hafter
      exact ⟨h.1, hchange children h.2⟩
    · obtain ⟨children', hchildren, rfl⟩ := Option.map_eq_some_iff.1 hafter
      exact ⟨h.1, SourcedAll.updateFirst? hchange h.2 hchildren⟩
  | contents n children, _, h, hafter => by
    rw [Dom.update?] at hafter
    split at hafter
    · cases hafter
      exact hchange children h
    · obtain ⟨children', hchildren, rfl⟩ := Option.map_eq_some_iff.1 hafter
      exact SourcedAll.updateFirst? hchange h hchildren
  | text _, _, _, hafter => by cases hafter
  | comment, _, _, hafter => by cases hafter

theorem SourcedAll.updateFirst? {id : Nat} {change : List Dom → List Dom}
    (hchange : ∀ children, SourcedAll children → SourcedAll (change children)) :
    ∀ {children after : List Dom}, SourcedAll children →
      Dom.updateFirst? id change children = some after → SourcedAll after
  | [], _, _, hafter => by cases hafter
  | node :: rest, _, h, hafter => by
    rcases updateFirst?_cons_cases hafter with ⟨node', hnode, rfl⟩ | ⟨rest', hrest, rfl⟩
    · exact ⟨Sourced.update? hchange h.1 hnode, h.2⟩
    · exact ⟨h.1, SourcedAll.updateFirst? hchange h.2 hrest⟩

end

theorem Sourced.getD_update? {tree : Dom} (h : tree.Sourced) (id : Nat)
    {change : List Dom → List Dom}
    (hchange : ∀ children, SourcedAll children → SourcedAll (change children)) :
    ((tree.update? id change).getD tree).Sourced := by
  cases hafter : tree.update? id change with
  | none => exact h
  | some after => exact Sourced.update? hchange h hafter

mutual

theorem Sourced.insertBefore? {id : Nat} {new : Dom} (hnew : new.Sourced) :
    ∀ {tree after : Dom}, tree.Sourced → Dom.insertBefore? id new tree = some after →
      after.Sourced
  | element n name attributes children, _, h, hafter => by
    obtain ⟨children', hchildren, rfl⟩ := Option.map_eq_some_iff.1 hafter
    exact ⟨h.1, SourcedAll.insertBeforeFirst? hnew h.2 hchildren⟩
  | contents n children, _, h, hafter => by
    obtain ⟨children', hchildren, rfl⟩ := Option.map_eq_some_iff.1 hafter
    exact SourcedAll.insertBeforeFirst? hnew h hchildren
  | text _, _, _, hafter => by cases hafter
  | comment, _, _, hafter => by cases hafter

theorem SourcedAll.insertBeforeFirst? {id : Nat} {new : Dom} (hnew : new.Sourced) :
    ∀ {children after : List Dom}, SourcedAll children →
      Dom.insertBeforeFirst? id new children = some after → SourcedAll after
  | [], _, _, hafter => by cases hafter
  | node :: rest, _, h, hafter => by
    rcases insertBeforeFirst?_cons_cases hafter with
      ⟨-, rfl⟩ | ⟨node', hnode, rfl⟩ | ⟨rest', hrest, rfl⟩
    · exact ⟨h.1, h.2.push hnew⟩
    · exact ⟨Sourced.insertBefore? hnew h.1 hnode, h.2⟩
    · exact ⟨h.1, SourcedAll.insertBeforeFirst? hnew h.2 hrest⟩

end

mutual

theorem Sourced.detach? {id : Nat} : ∀ {tree found rest : Dom}, tree.Sourced →
    tree.detach? id = some (found, rest) → found.Sourced ∧ rest.Sourced
  | element n name attributes children, _, _, h, hafter => by
    obtain ⟨⟨found, rest⟩, hchildren, heq⟩ := Option.map_eq_some_iff.1 hafter
    cases heq
    have hparts := SourcedAll.detachFirst? h.2 hchildren
    exact ⟨hparts.1, h.1, hparts.2⟩
  | contents n children, _, _, h, hafter => by
    obtain ⟨⟨found, rest⟩, hchildren, heq⟩ := Option.map_eq_some_iff.1 hafter
    cases heq
    exact SourcedAll.detachFirst? h hchildren
  | text _, _, _, _, hafter => by cases hafter
  | comment, _, _, _, hafter => by cases hafter

theorem SourcedAll.detachFirst? {id : Nat} : ∀ {children : List Dom} {found : Dom}
    {rest : List Dom}, SourcedAll children →
      Dom.detachFirst? id children = some (found, rest) → found.Sourced ∧ SourcedAll rest
  | [], _, _, _, hafter => by cases hafter
  | node :: more, _, _, h, hafter => by
    rcases detachFirst?_cons_cases hafter with
      ⟨-, rfl, rfl⟩ | ⟨node', hnode, rfl⟩ | ⟨more', hmore, rfl⟩
    · exact h
    · have hparts := h.1.detach? hnode
      exact ⟨hparts.1, hparts.2, h.2⟩
    · have hparts := SourcedAll.detachFirst? h.2 hmore
      exact ⟨hparts.1, h.1, hparts.2⟩

end

/-! ### Finished trees -/

mutual

theorem Sourced.forall_mem_elements_finish : ∀ {tree : Dom}, tree.Sourced →
    ∀ found ∈ tree.finish.elements, found.1.Carries found.2
  | element _ name attributes children, h => by
    intro found hfound
    rw [finish, HtmlNode.elements] at hfound
    rcases List.mem_cons.1 hfound with rfl | hfound
    · exact h.1
    · exact SourcedAll.forall_mem_elementsAll_finishAll h.2
        (fun _ hnone ↦ absurd hnone List.not_mem_nil) found hfound
  | text _, _ => nofun
  | comment, _ => nofun
  | contents _ _, _ => nofun

/-- A finished tree has the attributes of the tree under construction. -/
theorem SourcedAll.forall_mem_elementsAll_finishAll : ∀ {trees : List Dom} {after : List HtmlNode},
    SourcedAll trees → (∀ found ∈ HtmlNode.elementsAll after, found.1.Carries found.2) →
      ∀ found ∈ HtmlNode.elementsAll (finishAll trees after), found.1.Carries found.2
  | [], _, _, hafter => hafter
  | node :: rest, after, h, hafter => by
    rw [finishAll]
    refine SourcedAll.forall_mem_elementsAll_finishAll h.2 fun found hfound ↦ ?_
    rw [HtmlNode.elementsAll] at hfound
    rcases List.mem_append.1 hfound with hfound | hfound
    · exact h.1.forall_mem_elements_finish found hfound
    · exact hafter found hfound

end

end Dom

/-! ## Builders -/

/-- A formatting element has the attributes of a tag that is read. -/
def FormattingEntry.Sourced : FormattingEntry → Prop
  | marker => True
  | element _ tag => AreRead tag.attributes

/-- A token that is an opening tag has attributes as they are read. -/
def Token.Sourced : Token → Prop
  | startTag tag => AreRead tag.attributes
  | _ => True

namespace Builder

/-- All elements of the tree have the attributes of tags that are read, and so have the elements
that may be opened again. -/
def Sourced (b : Builder) : Prop :=
  b.tree.Sourced ∧ ∀ entry ∈ b.formatting, entry.Sourced

/-- The builder and the tree that is passed down are sourced. -/
def Walk.Sourced (walk : Walk) : Prop :=
  walk.builder.Sourced ∧ walk.subtree.Sourced

theorem sourced_empty : empty.Sourced := ⟨⟨⟨[], areRead_nil, rfl⟩, trivial⟩, nofun⟩

namespace Sourced

variable {b : Builder} {tag : Tag}

/-- A choice between sourced builders is sourced. -/
theorem ite {c : Prop} [Decidable c] {yes no : Builder} (hyes : c → yes.Sourced)
    (hno : ¬c → no.Sourced) : (if c then yes else no).Sourced := by
  split
  · next h => exact hyes h
  · next h => exact hno h

/-- Only the tree and the formatting elements matter. -/
theorem of_eq (h : b.Sourced) {b' : Builder} (htree : b'.tree = b.tree)
    (hformatting : b'.formatting = b.formatting) : b'.Sourced := by
  rw [Builder.Sourced, htree, hformatting]
  exact h

theorem withFormatting (h : b.Sourced) {formatting : List FormattingEntry}
    (hformatting : ∀ entry ∈ formatting, entry.Sourced) : Sourced { b with formatting } :=
  ⟨h.1, hformatting⟩

/-- Formatting elements may be forgotten. -/
theorem withSublist (h : b.Sourced) {formatting : List FormattingEntry}
    (hsublist : formatting.Sublist b.formatting) : Sourced { b with formatting } :=
  h.withFormatting fun entry hmem ↦ h.2 entry (hsublist.subset hmem)

theorem withTree (h : b.Sourced) {tree : Dom} (htree : tree.Sourced) : Sourced { b with tree } :=
  ⟨htree, h.2⟩

/-! ## Inserting nodes -/

theorem insertAt (h : b.Sourced) (place : Place) {node : Dom} (hnode : node.Sourced) :
    (b.insertAt place node).Sourced := by
  have hpush (children : List Dom) (hchildren : Dom.SourcedAll children) :
      Dom.SourcedAll (Dom.push node children) :=
    hchildren.push hnode
  cases place with
  | last id => exact h.withTree (h.1.getD_update? _ hpush)
  | beforeTable table below =>
    unfold Builder.insertAt
    dsimp only
    split
    · next tree htree => exact h.withTree (Dom.Sourced.insertBefore? hnode h.1 htree)
    · exact h.withTree (h.1.getD_update? _ hpush)

theorem appendText (h : b.Sourced) (text : List Char) : (b.appendText text).Sourced :=
  ite (fun _ ↦ h) fun _ ↦ h.insertAt _ trivial

theorem appendComment (h : b.Sourced) : b.appendComment.Sourced :=
  h.insertAt _ trivial

theorem insertElement (h : b.Sourced) (opened : Bool) {name : ElementName}
    {attributes : List Attribute} (hattributes : name.Carries attributes) :
    (b.insertElement opened name attributes).Sourced := by
  have hchildren : Dom.SourcedAll
      (if name = ⟨.html, "template"⟩ then [Dom.contents (contentsId b.nextId) []] else []) := by
    split
    · exact ⟨trivial, trivial⟩
    · trivial
  have helement : (Dom.element b.nextId name attributes _).Sourced := ⟨hattributes, hchildren⟩
  exact h.insertAt _ helement

theorem openHtml (h : b.Sourced) (htag : AreRead tag.attributes) : (b.openHtml tag).Sourced :=
  h.insertElement true (carries_htmlAttributes htag tag.name)

theorem addHtml (h : b.Sourced) (htag : AreRead tag.attributes) : (b.addHtml tag).Sourced :=
  h.insertElement false (carries_htmlAttributes htag tag.name)

theorem openForeign (h : b.Sourced) {vocabulary : Vocabulary} (hvocabulary : vocabulary ≠ .html)
    (htag : AreRead tag.attributes) : (b.openForeign vocabulary tag).Sourced :=
  h.insertElement _ ⟨tag.attributes, htag, by rw [attributeIn_of_ne hvocabulary]⟩

/-! ## Formatting elements -/

theorem pushMarker (h : b.Sourced) : b.pushMarker.Sourced :=
  h.withFormatting (List.forall_mem_cons.2 ⟨trivial, h.2⟩)

theorem clearToMarker (h : b.Sourced) : b.clearToMarker.Sourced :=
  h.withSublist ((List.tail_sublist _).trans (List.dropWhile_sublist _))

theorem removeFormatting (h : b.Sourced) (id : Nat) : (b.removeFormatting id).Sourced :=
  h.withSublist List.filter_sublist

theorem reopen (h : b.Sourced) {done closed : List FormattingEntry}
    (hdone : ∀ entry ∈ done, entry.Sourced) (hclosed : ∀ entry ∈ closed, entry.Sourced) :
    (b.reopen done closed).Sourced := by
  induction closed generalizing b done with
  | nil => exact h.withFormatting hdone
  | cons entry rest ih =>
    obtain ⟨hentry, hrest⟩ := List.forall_mem_cons.1 hclosed
    cases entry with
    | marker => exact ih h (List.forall_mem_cons.2 ⟨trivial, hdone⟩) hrest
    | element id tag =>
      exact ih (h.openHtml hentry) (List.forall_mem_cons.2 ⟨hentry, hdone⟩) hrest

theorem reopenFormatting (h : b.Sourced) : b.reopenFormatting.Sourced := by
  refine h.reopen (fun entry hmem ↦ h.2 entry (List.mem_of_mem_drop hmem)) fun entry hmem ↦ ?_
  exact h.2 entry ((List.takeWhile_sublist _).subset (List.mem_reverse.1 hmem))

theorem openFormatting (h : b.Sourced) (htag : AreRead tag.attributes) :
    (b.openFormatting tag).Sourced := by
  unfold Builder.openFormatting
  dsimp only
  generalize hforgotten : (if 3 ≤ _ then _ else b : Builder) = forgotten
  have hsourced : forgotten.Sourced := by
    rw [← hforgotten]
    refine ite (fun _ ↦ ?_) fun _ ↦ h
    split
    · exact h.removeFormatting _
    · exact h
  have hopened := hsourced.openHtml htag
  exact hopened.withFormatting (List.forall_mem_cons.2 ⟨htag, hopened.2⟩)

/-! ## Closing formatting elements -/

theorem closeOrdinary (h : b.Sourced) (name : String) : (b.closeOrdinary name).Sourced := by
  unfold Builder.closeOrdinary
  split <;> exact h

theorem walkDown {walk : Walk} (h : walk.Sourced) (passed : Nat) (between : List OpenElement) :
    (Builder.walkDown passed walk between).Sourced := by
  induction between generalizing walk passed with
  | nil => exact h
  | cons element below ih =>
    unfold Builder.walkDown
    dsimp only
    split
    · next id tag hfound =>
      have htag : AreRead tag.attributes := h.1.2 _ (List.mem_of_find?_eq_some hfound)
      split
      · refine ih ?_ _
        exact ⟨h.1.removeFormatting element.id, h.2⟩
      · refine ih ?_ _
        refine ⟨⟨h.1.1, fun entry hmem ↦ ?_⟩, carries_htmlAttributes htag _, h.2, trivial⟩
        obtain ⟨before, hbefore, rfl⟩ := List.mem_map.1 hmem
        split
        · exact htag
        · exact h.1.2 before hbefore
    · exact ih h _

theorem wrapChildren {tree : Dom} (h : tree.Sourced) (htag : AreRead tag.attributes)
    (id new : Nat) : (Builder.wrapChildren id new tag tree).Sourced :=
  h.getD_update? id fun _ hchildren ↦
    ⟨⟨carries_htmlAttributes htag tag.name, hchildren⟩, trivial⟩

theorem moveBlock {walk : Walk} (h : walk.Sourced) (htag : AreRead tag.attributes) (id : Nat)
    (block : OpenElement) (above below : List OpenElement) :
    (Builder.moveBlock walk id tag block above below).Sourced := by
  unfold Builder.moveBlock
  dsimp only
  generalize above ++ block :: walk.kept.reverse ++ _ = stack
  have hopen : Sourced { walk.builder with stack } := h.1
  have hinserted := hopen.insertAt (placeIn { walk.builder with stack }
    (below.headD ⟨0, ⟨.html, "html"⟩⟩)) h.2
  dsimp only at hinserted
  generalize Builder.insertAt _ _ walk.subtree = inserted at hinserted ⊢
  exact ⟨wrapChildren hinserted.1 htag block.id inserted.nextId,
    forall_mem_replaceFormatting htag hinserted.2 id walk.bookmark⟩

theorem of_round (h : b.Sourced) {name : String} {b' : Builder} (hround : Round name b b') :
    b'.Sourced := by
  cases hround with
  | pop _ => exact h
  | forget id => exact h.removeFormatting id
  | closeOrdinary => exact h.closeOrdinary name
  | close _ => exact h.removeFormatting _
  | @moveBlock formatting block tag above below found rest henclosed _ hdetach =>
    have htag : AreRead tag.attributes := h.2 _ henclosed.entry_mem
    have hparts := h.1.detach? hdetach
    have hstart : Walk.Sourced ⟨{ b with tree := rest }, [], found, none⟩ :=
      ⟨h.withTree hparts.2, hparts.1⟩
    exact moveBlock (walkDown hstart 0 _) htag formatting.id block _ _

theorem closeFormatting (h : b.Sourced) (name : String) : (b.closeFormatting name).Sourced :=
  keeps_of_reflTransGen (rounds_closeFormatting b name) h fun _ _ hround hbefore ↦
    hbefore.of_round hround

end Sourced

end Builder

end NotebookTree.Html
