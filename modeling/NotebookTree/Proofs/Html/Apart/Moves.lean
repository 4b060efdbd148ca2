import NotebookTree.Proofs.Html.Apart.Adoption

/-!
# Building trees without adjacent texts: whole texts

Each move of a builder keeps it tidy, as parts of tables are only opened where the elements above a
table, a section or a row have been closed, and formatting elements are no frames. So whatever a
text is read to is tidy.
-/

namespace NotebookTree.Html.Builder.Tidy

variable {known : List Nat} {b b' : Builder} {tag : Tag} {token : Token}

/-- An open form is remembered by its number. -/
theorem openForm (h : b.Tidy known) (hname : tag.name = "form") :
    Tidy known { b.openHtml tag with form := some b.nextId } := by
  have hmodal : isModalName tag.name = false := by
    rw [hname]
    decide
  have hopened := h.openHtml (not_mem_of_isModalName_eq_false hmodal)
  exact hopened.withForm fun id hid ↦ Option.some.inj hid ▸ h.isFree_nextId hmodal

theorem of_agrees (h : b.Tidy known) (hagrees : b.Agrees b') : b'.Tidy known :=
  h.of_eq hagrees.tree_eq hagrees.nextId_eq hagrees.stack_eq hagrees.formatting_eq hagrees.form_eq

theorem templateEnd (h : b.Tidy known) : b.templateEnd.Tidy known := by
  unfold Builder.templateEnd
  refine ite (fun _ ↦ ?_) fun _ ↦ h
  exact ((h.popWhile _).popTag "template").clearToMarker.of_agrees ⟨rfl, rfl, rfl, rfl, rfl⟩

theorem of_bodyMove (h : b.Tidy known) (hmove : BodyMove token b b') : b'.Tidy known := by
  cases hmove with
  | close hcloses => exact h.close hcloses.suffix
  | closeOrdinary _ name => exact h.closeOrdinary name
  | closeFormatting _ _ _ => exact h.closeFormatting _
  | closeLink hentry => exact h.closeLink hentry
  | closeForm hform => exact (h.removeOpen (h.recalls.form _ hform)).withForm nofun
  | forgetForm => exact h.withForm nofun
  | closeTemplate _ => exact h.templateEnd
  | openHtml _ hname => exact h.openHtml hname
  | addHtml _ hname => exact h.addHtml hname
  | openForm hname => exact h.openForm hname
  | openForeign hvocabulary _ => exact h.openForeign hvocabulary _
  | reopenFormatting => exact h.reopenFormatting
  | openFormatting hname =>
    exact h.openFormatting
      ((show ∀ name ∈ formattingTags, isModalName name = false by decide) _ hname)
  | pushMarker => exact h.pushMarker
  | clearToMarker => exact h.clearToMarker
  | set _ hagrees => exact h.of_agrees hagrees

theorem of_move (h : b.Tidy known) (hmove : Move token b b') : b'.Tidy known := by
  cases hmove with
  | body hmove => exact h.of_bodyMove hmove
  | close hsuffix => exact h.close hsuffix
  | appendText _ _ text => exact h.appendText text
  | appendComment => exact h.appendComment
  | openPart _ hname hfooted => exact h.openPart hname hfooted
  | openForeign hvocabulary => exact h.openForeign hvocabulary _
  | set hagrees => exact h.of_agrees hagrees

/-- Whatever a tidy builder reads leaves it tidy. -/
theorem of_built (h : b.Tidy known) (hbuilt : Built b b') : b'.Tidy known :=
  keeps_of_reflTransGen hbuilt h fun _ _ ⟨_, _, hmove⟩ hbefore ↦ hbefore.of_move hmove

end NotebookTree.Html.Builder.Tidy
