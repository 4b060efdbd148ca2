import NotebookTree.Proofs.Html.Relabeling.Respelling
import NotebookTree.Proofs.Html.Sourced.Building

/-!
# Where the attributes of elements come from: whole texts

Each move of a builder keeps it sourced if it is for a tag as tags are read, as all moves for a text
are. So all elements that a fragment is parsed to carry the attributes of tags of its text:
`forall_mem_parseFragment_carries`.
-/

namespace NotebookTree.Html

/-! ## Tags as they are read -/

theorem AreRead.addAttribute {entries : List (String × String)} (h : AreRead entries)
    (name value : List Char) : AreRead (Token.addAttribute entries name value) := by
  unfold Token.addAttribute
  dsimp only
  split
  · exact h
  · next hfresh =>
    constructor
    · rw [List.map_append, List.map_singleton, List.nodup_append]
      refine ⟨h.nodup, List.nodup_cons.2 ⟨List.not_mem_nil, List.nodup_nil⟩, ?_⟩
      rintro known hmem _ hnew rfl
      obtain ⟨entry, hentry, rfl⟩ := List.mem_map.1 hmem
      exact hfresh (List.any_eq_true.2 ⟨entry, hentry, beq_iff_eq.2 (List.mem_singleton.1 hnew)⟩)
    · intro entry hmem
      rcases List.mem_append.1 hmem with hmem | hmem
      · exact h.lower entry hmem
      · rw [List.mem_singleton.1 hmem, Text.lowerAsciiString, String.toList_ofList, List.map_map]
        exact congrArg String.ofList
          (List.map_congr_left fun c _ ↦ lowerAscii_withoutNull_lowerAscii c)

namespace Token

/-- The attributes of a tag are added one by one. -/
theorem areRead_of_attributes? {fuel : Nat} {before attributes : List (String × String)}
    {cs rest : List Char} {selfClosing : Bool} (hbefore : AreRead before)
    (h : attributes? fuel before cs = some (attributes, selfClosing, rest)) :
    AreRead attributes := by
  induction fuel generalizing before cs with
  | zero => cases h
  | succ fuel ih =>
    unfold attributes? at h
    split at h
    · cases h
    · cases h
      exact hbefore
    · cases h
      exact hbefore
    · exact ih hbefore h
    · dsimp only at h
      split at h
      · obtain ⟨found, -, hrest⟩ := Option.bind_eq_some_iff.1 h
        exact ih (hbefore.addAttribute _ found.1) hrest
      · exact ih (hbefore.addAttribute _ []) h

theorem areRead_of_tag? {cs rest : List Char} {tag : Tag} (h : tag? cs = some (tag, rest)) :
    AreRead tag.attributes := by
  cases hattributes : attributes? (cs.length + 1) [] (cs.dropWhile (!endsName ·)) with
  | none =>
    rw [tag?, hattributes] at h
    cases h
  | some found =>
    rw [tag?, hattributes] at h
    cases h
    exact areRead_of_attributes? areRead_nil hattributes

theorem Sourced.of_not_isTag {token : Token} (h : token.isTag = false) : token.Sourced := by
  cases token with
  | startTag tag => cases h
  | _ => trivial

theorem sourced_of_mem_textOrClosing {tokensOf : List Char → List Token}
    (htokensOf : ∀ text, ∀ token ∈ tokensOf text, token.Sourced) {text rest : List Char} :
    ∀ token ∈ (textOrClosing tokensOf text rest).1, token.Sourced := by
  intro token hmem
  unfold textOrClosing at hmem
  split at hmem
  · split at hmem
    · rw [List.mem_singleton.1 hmem]
      trivial
    · cases hmem
  · exact htokensOf _ token hmem

/-- Every token that is read is sourced. -/
theorem sourced_of_mem_read {reading : Reading} {foreign : Bool} {cs : List Char} :
    ∀ token ∈ (read reading foreign cs).1, token.Sourced := by
  have hcharacters (text : List Char) : ∀ token ∈ [characters text], token.Sourced := by
    intro token hmem
    rw [List.mem_singleton.1 hmem]
    trivial
  cases reading with
  | markup =>
    intro token hmem
    rcases readMarkup_cases foreign cs with hnone | ⟨_, tag, _, htag, hstart | hstop⟩
    · exact .of_not_isTag (hnone token hmem)
    · obtain rfl := List.mem_singleton.1 (hstart ▸ hmem : token ∈ [startTag tag])
      exact areRead_of_tag? htag
    · obtain rfl := List.mem_singleton.1 (hstop ▸ hmem : token ∈ [endTag tag.name])
      trivial
  | escapable closing =>
    exact sourced_of_mem_textOrClosing fun _ token hmem ↦
      .of_not_isTag (not_isTag_of_mem_textTokens token hmem)
  | raw closing => exact sourced_of_mem_textOrClosing hcharacters
  | script => exact sourced_of_mem_textOrClosing hcharacters
  | plain => exact hcharacters _

theorem IsRead.sourced {token : Token} (h : token.IsRead) : token.Sourced := by
  rcases h with ⟨text, rfl⟩ | ⟨reading, foreign, text, hmem⟩
  · trivial
  · exact sourced_of_mem_read token hmem

/-- The elements for a token have its attributes or none. -/
theorem Sourced.areRead {token : Token} (h : token.Sourced) {tag : Tag} (htag : token.Yields tag) :
    AreRead tag.attributes := by
  cases htag with
  | own tag => exact h
  | image tag => exact h
  | implied _ => exact areRead_nil

end Token

/-! ## Moves -/

namespace Builder

namespace Sourced

variable {b b' : Builder} {token : Token}

theorem of_agrees (h : b.Sourced) (hagrees : b.Agrees b') : b'.Sourced :=
  h.of_eq hagrees.tree_eq hagrees.formatting_eq

theorem templateEnd (h : b.Sourced) : b.templateEnd.Sourced :=
  ite (fun _ ↦ Sourced.clearToMarker (b := (b.popWhile _).popTag "template") h) fun _ ↦ h

theorem of_bodyMove (h : b.Sourced) (hmove : BodyMove token b b') (htoken : token.Sourced) :
    b'.Sourced := by
  cases hmove with
  | close _ => exact h
  | closeOrdinary _ name => exact h.closeOrdinary name
  | closeFormatting _ _ _ => exact h.closeFormatting _
  | closeLink _ => exact (h.closeFormatting "a").removeFormatting _
  | closeForm _ => exact h
  | forgetForm => exact h
  | closeTemplate _ => exact h.templateEnd
  | openHtml htag _ => exact h.openHtml (htoken.areRead htag)
  | addHtml htag _ => exact h.addHtml (htoken.areRead htag)
  | openForm _ => exact (h.openHtml (htoken.areRead (.own _))).of_eq rfl rfl
  | openForeign hvocabulary _ => exact h.openForeign hvocabulary (htoken.areRead (.own _))
  | reopenFormatting => exact h.reopenFormatting
  | openFormatting _ => exact h.openFormatting (htoken.areRead (.own _))
  | pushMarker => exact h.pushMarker
  | clearToMarker => exact h.clearToMarker
  | set _ hagrees => exact h.of_agrees hagrees

theorem of_move (h : b.Sourced) (hmove : Move token b b') (htoken : token.Sourced) :
    b'.Sourced := by
  cases hmove with
  | body hmove => exact h.of_bodyMove hmove htoken
  | close _ => exact h
  | appendText _ _ text => exact h.appendText text
  | appendComment => exact h.appendComment
  | openPart htag _ _ =>
    refine h.openHtml ?_
    rcases htag with rfl | hnone
    · exact htoken
    · rw [hnone]
      exact areRead_nil
  | openForeign hvocabulary => exact h.openForeign hvocabulary htoken
  | set hagrees => exact h.of_agrees hagrees

/-- Whatever a sourced builder reads leaves it sourced. -/
theorem of_built (h : b.Sourced) (hbuilt : Built b b') : b'.Sourced :=
  keeps_of_reflTransGen hbuilt h fun _ _ ⟨_, htoken, hmove⟩ hbefore ↦
    hbefore.of_move hmove htoken.sourced

end Sourced

end Builder

/-- Each element that a fragment is parsed to carries the attributes of a tag of the fragment. -/
theorem forall_mem_parseFragment_carries (html : String) :
    ∀ found ∈ HtmlNode.elementsAll (parseFragment html), found.1.Carries found.2 := by
  unfold parseFragment
  dsimp only
  generalize normalizeLineEnds _ = text
  have hsourced := (Builder.sourced_empty.of_built
    (Builder.built_atEnd_readAll (text.length + 1) text)).1
  generalize (Builder.empty.readAll (text.length + 1) text).atEnd.tree = tree at hsourced ⊢
  have helements := hsourced.forall_mem_elements_finish
  split
  · next heq =>
    rw [heq, HtmlNode.elements] at helements
    exact (List.forall_mem_cons.1 helements).2
  · rw [HtmlNode.elementsAll, HtmlNode.elementsAll, List.append_nil]
    exact helements

end NotebookTree.Html
