import NotebookTree.Proofs.Html.Fragment
import NotebookTree.Proofs.Html.Relabeling.Slots

/-!
# Texts with other names

`Respelled` says of two texts of markup that they are the same but for the name of some elements,
which in the second text is that of the stand-ins. The fragments that the texts denote are then the
same but for that name: `compileFragment_of_respelled`. Stand-ins may stand in both texts.
-/

namespace NotebookTree

open Outcome

namespace Node

mutual

/-- A node whose elements have other tags. -/
def mapTags (change : String → String) : Node → Node
  | root children => root (mapTagsAll change children)
  | element tag attributes children =>
    element (change tag) attributes (mapTagsAll change children)
  | text value => text value

/-- Nodes whose elements have other tags. -/
def mapTagsAll (change : String → String) : List Node → List Node
  | [] => []
  | node :: rest => mapTags change node :: mapTagsAll change rest

end

theorem mapTagsAll_append (change : String → String) (first second : List Node) :
    mapTagsAll change (first ++ second) = mapTagsAll change first ++ mapTagsAll change second := by
  induction first with
  | nil => rfl
  | cons node rest ih => rw [List.cons_append, mapTagsAll, mapTagsAll, ih, List.cons_append]

end Node

namespace Html

open Relabeling

/-! ## Spellings -/

namespace Token

/-- The tags in whose place other tags may have an effect, or none. -/
def barredTags (narrow : Bool) : List String :=
  textTags ++ if narrow then hostTags else narrowTags

/-- Is a token no tag of the two names, and no opening tag that is left out? -/
def isNeutral (new : String) (narrow : Bool) : Token → Bool
  | startTag tag => tag.name ∉ new :: standInTag :: barredTags narrow
  | endTag name => name ∉ [new, standInTag]
  | _ => true

end Token

/-- Markup that is read as neutral tokens alone, whatever comes after it. -/
structure IsNeutral (new : String) (narrow : Bool) (markup : List Char) : Prop where
  exists_rest : ∃ rest, markup = '<' :: rest
  getLast?_ne : markup.getLast? ≠ some '\r'
  reads : ∀ foreign, ∃ tokens, (∀ token ∈ tokens, Token.isNeutral new narrow token = true) ∧
    ∀ more, Token.readMarkup foreign (normalizeLineEnds markup ++ more) = (tokens, more)

/-- Does a character after a less-than sign make it the start of markup? -/
def startsMarkup (c : Char) : Bool :=
  c.isAlpha || c == '/' || c == '!' || c == '?'

/-- Two texts that are the same but for the name of some elements, which in the second text are
named like the stand-ins. -/
inductive Respelled (new : String) (narrow standIns : Bool) : List Char → List Char → Prop where
  | nil : Respelled new narrow standIns [] []
  | character {c : Char} {text text' : List Char} : c ≠ '<' →
      Respelled new narrow standIns text text' →
      Respelled new narrow standIns (c :: text) (c :: text')
  /-- A less-than sign that is a character. -/
  | lessThan {c : Char} {text text' : List Char} : text.head? = some c → startsMarkup c = false →
      Respelled new narrow standIns text text' →
      Respelled new narrow standIns ('<' :: text) ('<' :: text')
  /-- Markup of other names. -/
  | neutral {markup text text' : List Char} : IsNeutral new narrow markup →
      Respelled new narrow standIns text text' →
      Respelled new narrow standIns (markup ++ text) (markup ++ text')
  /-- An element that holds text alone, with its end tag. -/
  | textElement {tag : Tag} {opening value closing text text' : List Char} :
      tag.name ∈ textTags → tag.name ∉ "plaintext" :: (if narrow then hostTags else narrowTags) →
      (∀ c ∈ value, c ≠ '<' ∧ c ≠ '\x00') →
      Token.Written (.startTag tag) (normalizeLineEnds opening) →
      Token.Written (.endTag tag.name) (normalizeLineEnds closing) →
      Respelled new narrow standIns text text' →
      Respelled new narrow standIns (opening ++ (value ++ (closing ++ text)))
        (opening ++ (value ++ (closing ++ text')))
  /-- An opening tag, with the same attributes. -/
  | opening {markup markup' text text' : List Char} {tag : Tag} : tag.name = new →
      Token.Written (.startTag tag) (normalizeLineEnds markup) →
      Token.Written (.startTag { tag with name := standInTag }) (normalizeLineEnds markup') →
      Respelled new narrow standIns text text' →
      Respelled new narrow standIns (markup ++ text) (markup' ++ text')
  /-- An end tag. -/
  | closing {markup markup' text text' : List Char} :
      Token.Written (.endTag new) (normalizeLineEnds markup) →
      Token.Written (.endTag standInTag) (normalizeLineEnds markup') →
      Respelled new narrow standIns text text' →
      Respelled new narrow standIns (markup ++ text) (markup' ++ text')
  /-- A stand-in, which is the same in both texts. -/
  | standIn {text text' : List Char} (index : Nat) : standIns = true →
      Respelled new narrow standIns text text' →
      Respelled new narrow standIns (standIn index ++ text) (standIn index ++ text')

namespace Respelled

variable {new : String} {narrow standIns : Bool} {text text' : List Char}

/-- A text without less-than signs is the same in both texts. -/
theorem of_not_mem {more : List Char} (hmore : '<' ∉ more)
    (h : Respelled new narrow standIns text text') :
    Respelled new narrow standIns (more ++ text) (more ++ text') := by
  induction more with
  | nil => exact h
  | cons c rest ih =>
    rw [List.mem_cons, not_or] at hmore
    exact .character (Ne.symm hmore.1) (ih hmore.2)

/-- Texts one after the other. -/
theorem append {first first' : List Char} (hfirst : Respelled new narrow false first first')
    (h : Respelled new narrow true text text') :
    Respelled new narrow true (first ++ text) (first' ++ text') := by
  induction hfirst with
  | nil => exact h
  | character hc _ ih => exact .character hc ih
  | lessThan hhead hstarts _ ih =>
    refine .lessThan ?_ hstarts ih
    obtain ⟨rest, rfl⟩ := List.head?_eq_some_iff.1 hhead
    rfl
  | neutral hmarkup _ ih =>
    rw [List.append_assoc, List.append_assoc]
    exact .neutral hmarkup ih
  | textElement hname hbarred hvalue hopening hclosing _ ih =>
    simp only [List.append_assoc]
    exact .textElement hname hbarred hvalue hopening hclosing ih
  | opening hname hwritten hwritten' _ ih =>
    rw [List.append_assoc, List.append_assoc]
    exact .opening hname hwritten hwritten' ih
  | closing hwritten hwritten' _ ih =>
    rw [List.append_assoc, List.append_assoc]
    exact .closing hwritten hwritten' ih
  | standIn _ hnone _ _ => cases hnone

end Respelled

/-! ## Line ends -/

/-- Line ends are changed part by part, unless a part starts inside a line end. -/
theorem normalizeLineEnds_append_of_head? {more : List Char} (h : more.head? ≠ some '\n')
    (cs : List Char) :
    normalizeLineEnds (cs ++ more) = normalizeLineEnds cs ++ normalizeLineEnds more := by
  fun_induction normalizeLineEnds cs with
  | case1 => rfl
  | case2 rest ih => exact congrArg ('\n' :: ·) ih
  | case3 rest hreturn ih =>
    have hhead : (rest ++ more).head? ≠ some '\n' := by
      cases rest with
      | nil => exact h
      | cons c rest => exact fun heq ↦ hreturn rest (congrArg (· :: rest) (Option.some.inj heq))
    rw [List.cons_append, normalizeLineEnds_return hhead, ih]
    rfl
  | case4 c rest _ hne ih =>
    rw [List.cons_append, normalizeLineEnds_cons hne, ih]
    rfl

theorem of_mem_normalizeLineEnds {cs : List Char} {c : Char} (h : c ∈ normalizeLineEnds cs) :
    c = '\n' ∨ c ∈ cs := by
  fun_induction normalizeLineEnds cs with
  | case1 => exact .inr h
  | case2 rest ih =>
    rcases List.mem_cons.1 h with rfl | h
    · exact .inl rfl
    · exact (ih h).imp_right fun hmem ↦ List.mem_cons_of_mem _ (List.mem_cons_of_mem _ hmem)
  | case3 rest _ ih =>
    rcases List.mem_cons.1 h with rfl | h
    · exact .inl rfl
    · exact (ih h).imp_right (List.mem_cons_of_mem _)
  | case4 d rest _ _ ih =>
    rcases List.mem_cons.1 h with rfl | h
    · exact .inr List.mem_cons_self
    · exact (ih h).imp_right (List.mem_cons_of_mem _)

theorem head?_normalizeLineEnds (cs : List Char) :
    (normalizeLineEnds cs).head? = cs.head?.map fun c ↦ if c = '\r' then '\n' else c := by
  fun_cases normalizeLineEnds cs with
  | case1 => rfl
  | case2 => rfl
  | case3 => rfl
  | case4 c _ _ hne => exact congrArg some (if_neg hne).symm

/-- Markup that is a tag once its line ends are changed starts like a tag. -/
theorem Token.Written.head?_eq {markup : List Char} {token : Token}
    (h : Written token (normalizeLineEnds markup)) : markup.head? = some '<' := by
  obtain ⟨rest, hrest⟩ := h.exists_eq_cons
  have hhead := head?_normalizeLineEnds markup
  rw [hrest, List.head?_cons, eq_comm, Option.map_eq_some_iff] at hhead
  obtain ⟨c, hc, hless⟩ := hhead
  split at hless
  · cases hless
  · rw [hc, hless]

namespace Respelled

variable {new : String} {narrow standIns : Bool} {text text' : List Char}

theorem head?_eq (h : Respelled new narrow standIns text text') : text'.head? = text.head? := by
  cases h with
  | nil => rfl
  | character _ _ => rfl
  | lessThan _ _ _ => rfl
  | neutral hmarkup _ =>
    obtain ⟨rest, rfl⟩ := hmarkup.exists_rest
    rfl
  | textElement _ _ _ hopening _ _ =>
    obtain ⟨rest, rfl⟩ := List.head?_eq_some_iff.1 hopening.head?_eq
    rfl
  | opening _ hwritten hwritten' _ =>
    rw [List.head?_append, List.head?_append, hwritten.head?_eq, hwritten'.head?_eq]
    rfl
  | closing hwritten hwritten' _ =>
    rw [List.head?_append, List.head?_append, hwritten.head?_eq, hwritten'.head?_eq]
    rfl
  | standIn _ _ _ => rfl

theorem of_cons {c : Char} (hc : c ≠ '<')
    (h : Respelled new narrow standIns (c :: text) (c :: text')) :
    Respelled new narrow standIns text text' := by
  have hhead {more rest : List Char} {markup : List Char} (hmarkup : markup.head? = some '<')
      (heq : c :: more = markup ++ rest) : False := by
    obtain ⟨others, rfl⟩ := List.head?_eq_some_iff.1 hmarkup
    exact hc (List.cons.inj heq).1
  generalize htext : c :: text = first at h
  generalize htext' : c :: text' = second at h
  cases h with
  | nil => cases htext
  | character _ hrest =>
    cases htext
    cases htext'
    exact hrest
  | lessThan _ _ _ => exact absurd (List.cons.inj htext).1 hc
  | neutral hmarkup _ =>
    obtain ⟨rest, rfl⟩ := hmarkup.exists_rest
    exact absurd (List.cons.inj htext).1 hc
  | textElement _ _ _ hopening _ _ => exact (hhead hopening.head?_eq htext).elim
  | opening _ hwritten _ _ => exact (hhead hwritten.head?_eq htext).elim
  | closing hwritten _ _ => exact (hhead hwritten.head?_eq htext).elim
  | standIn _ _ _ => exact absurd (List.cons.inj htext).1 hc

end Respelled

/-! ## Tags are read in lower case -/

theorem lowerAscii_lowerAscii (c : Char) :
    Text.lowerAscii (Text.lowerAscii c) = Text.lowerAscii c := by
  rcases lowerAscii_cases c with heq | ⟨place, heq⟩
  · rw [heq, heq]
  · rw [heq]
    exact (show ∀ place : Fin 26, Text.lowerAscii (Char.ofNat (97 + place)) =
      Char.ofNat (97 + place) by decide) place

theorem lowerAscii_withoutNull_lowerAscii (c : Char) :
    Text.lowerAscii (Token.withoutNull (Text.lowerAscii c)) =
      Token.withoutNull (Text.lowerAscii c) := by
  unfold Token.withoutNull
  split
  · decide
  · exact lowerAscii_lowerAscii c

theorem Token.lower_of_tag? {cs rest : List Char} {tag : Tag} (h : tag? cs = some (tag, rest)) :
    Text.lowerAsciiString tag.name = tag.name := by
  rw [(name_of_tag? h).1, Text.lowerAsciiString, String.toList_ofList, List.map_map]
  exact congrArg String.ofList
    (List.map_congr_left fun c _ ↦ lowerAscii_withoutNull_lowerAscii c)

/-- A less-than sign that starts no markup is a character. -/
theorem Token.readMarkup_lessThan (foreign : Bool) {c : Char} (rest : List Char)
    (h : startsMarkup c = false) :
    readMarkup foreign ('<' :: c :: rest) = ([.characters ['<']], c :: rest) := by
  simp only [startsMarkup, Bool.or_eq_false_iff, beq_eq_false_iff_ne] at h
  obtain ⟨⟨⟨halpha, hslash⟩, hbang⟩, hquestion⟩ := h
  unfold readMarkup
  split
  · next heq => cases heq
  · next heq => cases heq
  · next heq => exact absurd (List.cons.inj (List.cons.inj heq).2).1 hbang
  · next heq => exact absurd (List.cons.inj (List.cons.inj heq).2).1 hquestion
  · next heq => exact absurd (List.cons.inj (List.cons.inj heq).2).1 hslash
  · next heq => exact absurd (List.cons.inj (List.cons.inj heq).2).1 hslash
  · next heq =>
    cases heq
    rw [if_neg (by simp [halpha])]
  · next hlast heq =>
    cases heq
    exact absurd rfl (hlast c rest rfl)

theorem Token.lower_of_mem_readMarkup (foreign : Bool) (cs : List Char) {tag : Tag}
    (h : .startTag tag ∈ (readMarkup foreign cs).1) :
    Text.lowerAsciiString tag.name = tag.name := by
  rcases readMarkup_cases foreign cs with hnone | ⟨_, found, _, hfound, hstart | hend⟩
  · cases hnone _ h
  · rw [hstart, List.mem_singleton] at h
    cases h
    exact lower_of_tag? hfound
  · rw [hend, List.mem_singleton] at h
    cases h

/-! ## Reading in step -/

namespace Builder

section Steps

variable {r : Relabeling} {b b' : Builder}

theorem Tracks.foldl_accept (h : Tracks r b b') {tokens : List Token}
    (htokens : ∀ token ∈ tokens, r.Accepts token) :
    Tracks r (tokens.foldl Builder.accept b) ((tokens.map r.token).foldl Builder.accept b') := by
  induction tokens generalizing b b' with
  | nil => exact h
  | cons token rest ih =>
    obtain ⟨htoken, hrest⟩ := List.forall_mem_cons.1 htokens
    exact ih (h.accept htoken) hrest

/-- The next part of two texts is read in one step. -/
theorem Tracks.exists_readAll (h : Tracks r b b') {cs cs' rest rest' : List Char}
    {tokens : List Token} (hne : cs ≠ []) (hne' : cs' ≠ [])
    (htokens : ∀ token ∈ tokens, r.Accepts token)
    (hread : Token.read b.reading (b.current.name.vocabulary != .html) (cs ++ rest) =
      (tokens, rest))
    (hread' : Token.read b.reading (b.current.name.vocabulary != .html) (cs' ++ rest') =
      (tokens.map r.token, rest'))
    {limit limit' : Nat} (hlimit : (cs ++ rest).length < limit)
    (hlimit' : (cs' ++ rest').length < limit') :
    ∃ (more more' : Nat) (next' : Builder), rest.length < more ∧ rest'.length < more' ∧
      Tracks r (tokens.foldl Builder.accept b) next' ∧
      b.readAll limit (cs ++ rest) = (tokens.foldl Builder.accept b).readAll more rest ∧
      b'.readAll limit' (cs' ++ rest') = next'.readAll more' rest' := by
  have hreading : b'.reading = b.reading := congrArg Plan.reading h.plan_eq
  obtain ⟨more, hmore, hall⟩ := exists_readAll_eq_of_read hne hread hlimit
  obtain ⟨more', hmore', hall'⟩ := exists_readAll_eq_of_read (b := b') hne'
    (by rw [hreading, h.vocabulary_current]; exact hread') hlimit'
  exact ⟨more, more', _, hmore, hmore', h.foldl_accept htokens, hall, hall'⟩

end Steps

variable {new : String} {h : IsFresh new} {narrow standIns : Bool} {b b' : Builder}

theorem Tracks.reading_eq (hb : Tracks (slots h narrow standIns []) b b') :
    b.reading = .markup := by
  have hcontent {plan : Plan} (hplan : (slots h narrow standIns []).Content plan) :
      plan.reading = .markup := hplan.reads.resolve_right fun hplain ↦ List.not_mem_nil hplain.2
  cases hb.plan with
  | content hplan => exact hcontent hplan
  | tableText _ _ hplan => exact hcontent hplan
  | text _ hname _ _ => exact absurd hname List.not_mem_nil

theorem accepts_of_isNeutral {token : Token} (hneutral : token.isNeutral new narrow = true)
    (hlower : ∀ tag, token = .startTag tag → Text.lowerAsciiString tag.name = tag.name) :
    (slots h narrow false []).Accepts token ∧ (slots h narrow false []).token token = token := by
  cases token with
  | startTag tag =>
    have hname := of_decide_eq_true hneutral
    simp only [Token.barredTags, List.mem_cons, List.mem_append, not_or] at hname
    refine ⟨slots_acceptsTag (hlower tag rfl) hname.2.2.2 (fun hmem ↦ absurd hmem hname.2.2.1)
      fun _ ↦ hname.2.1, ?_⟩
    rw [Relabeling.token, Relabeling.tag, slots_rename_ne hname.1]
  | endTag name =>
    have hname := of_decide_eq_true hneutral
    simp only [List.mem_cons, List.not_mem_nil, or_false, not_or] at hname
    refine ⟨slots_acceptsEnd hname.2, ?_⟩
    rw [Relabeling.token, slots_rename_ne hname.1]
  | characters text => exact ⟨trivial, rfl⟩
  | nullCharacter => exact ⟨trivial, rfl⟩
  | comment => exact ⟨trivial, rfl⟩
  | doctype => exact ⟨trivial, rfl⟩
  | fault => exact ⟨trivial, rfl⟩

/-! ## Elements that hold text alone -/

section TextElements

variable {name : String}

/-- A builder that reads no text of such an element is in order as if there were none. -/
theorem orderly_of_mode_ne_text {plan : Plan} (hname : name ≠ "plaintext")
    (hplan : (slots h narrow standIns [name]).Orderly plan) (hmode : plan.mode ≠ .text) :
    (slots h narrow standIns []).Orderly plan := by
  have hcontent {plan : Plan} (hplan : (slots h narrow standIns [name]).Content plan) :
      (slots h narrow standIns []).Content plan := by
    refine ⟨hplan.allows_mode, hplan.allows_template, .inl (hplan.reads.resolve_right ?_)⟩
    exact fun hplain ↦ hname (List.mem_singleton.1 hplain.2).symm
  cases hplan with
  | content hplan => exact .content (hcontent hplan)
  | tableText hmode houter hplan => exact .tableText hmode houter (hcontent hplan)
  | text htext _ _ _ => exact absurd htext hmode

theorem Tracks.reading_cases (hname : name ≠ "plaintext")
    (hb : Tracks (slots h narrow standIns [name]) b b') :
    b.reading = .markup ∨ b.reading = textReading name := by
  by_cases hmode : b.mode = .text
  · cases hb.plan with
    | content hplan => exact absurd hmode hplan.allows_mode.1
    | tableText htable _ _ => exact absurd (hmode.symm.trans htable) (by decide)
    | text _ hmem hreading _ =>
      rw [List.mem_singleton.1 hmem] at hreading
      exact .inr hreading
  · have hplan := orderly_of_mode_ne_text hname hb.plan hmode
    have hnone : Tracks (slots h narrow standIns []) b b' :=
      ⟨(hb.slots_of standIns [] hb.admits).weaken hplan, hb.html_of_text⟩
    exact .inl hnone.reading_eq

/-- The end tag of such an element ends its text. -/
theorem Tracks.accept_textEnd (hmem : name ∈ textTags) (hname : name ≠ "plaintext")
    (hb : Tracks (slots h narrow false [name]) b b') :
    Tracks (slots h narrow false []) (b.accept (.endTag name)) (b'.accept (.endTag name)) := by
  have hne : name ≠ standInTag ∧ name ≠ new := by
    refine ⟨?_, fun heq ↦ h.ne_of_isReserved ?_ heq⟩
    · rintro rfl
      revert hmem
      decide
    · exact (show ∀ name ∈ textTags, isReserved name = true by decide) name hmem
  have haccepts (texts : List String) : (slots h narrow false texts).Accepts (.endTag name) :=
    slots_acceptsEnd hne.1
  have htoken (texts : List String) :
      (slots h narrow false texts).token (.endTag name) = .endTag name := by
    rw [Relabeling.token, slots_rename_ne hne.2]
  by_cases hmode : b.mode = .text
  · have hstep := hb.accept (haccepts [name])
    rw [htoken] at hstep
    have hend : b.accept (.endTag name) =
        { b with
          stack := b.stack.tail, mode := b.outerMode, reading := .markup, dropLineFeed := false } := by
      refine settle_of_done (8 * b.stack.length + 15) ?_
      have hcurrent : (current { b with dropLineFeed := false }).name.vocabulary = .html :=
        hb.html_of_text hmode
      have hforeign : ¬isForeign { b with dropLineFeed := false } (.endTag name) = true := by
        simp [isForeign, hcurrent]
      rw [if_neg hforeign, Builder.inMode]
      dsimp only
      rw [hmode]
      rfl
    have hplan : (slots h narrow false []).Content (b.accept (.endTag name)).plan := by
      rw [hend]
      cases hb.plan with
      | content hplan => exact absurd hmode hplan.allows_mode.1
      | tableText htable _ _ => exact absurd (hmode.symm.trans htable) (by decide)
      | text _ _ _ hplan => exact ⟨hplan.allows_mode, hplan.allows_template, .inl rfl⟩
    exact ⟨(hstep.slots_of false [] hstep.admits).weaken (.content hplan),
      fun heq ↦ absurd heq hplan.allows_mode.1⟩
  · have hplan := orderly_of_mode_ne_text hname hb.plan hmode
    have hnone : Tracks (slots h narrow false []) b b' :=
      ⟨(hb.slots_of false [] hb.admits).weaken hplan, hb.html_of_text⟩
    have hstep := hnone.accept (haccepts [])
    rwa [htoken] at hstep

/-- The opening tag of such an element. -/
theorem Tracks.accept_textStart {tag : Tag} (hmem : tag.name ∈ textTags)
    (hbarred : tag.name ∉ if narrow then hostTags else narrowTags)
    (hb : Tracks (slots h narrow false []) b b') :
    Tracks (slots h narrow false [tag.name]) (b.accept (.startTag tag))
      (b'.accept (.startTag tag)) := by
  have hall : ∀ name ∈ textTags, isReserved name = true ∧ Text.lowerAsciiString name = name ∧
      name ≠ standInTag := by decide
  obtain ⟨hreserved, hlower, hne⟩ := hall tag.name hmem
  have hplan := hb.plan.mono (slots h narrow false [tag.name]) rfl (List.nil_subset _)
  have hweak : Tracks (slots h narrow false [tag.name]) b b' :=
    ⟨(hb.slots_of false [tag.name] hb.admits).weaken hplan, hb.html_of_text⟩
  have haccepts : (slots h narrow false [tag.name]).AcceptsTag tag :=
    slots_acceptsTag hlower hbarred (fun _ ↦ List.mem_singleton_self _) fun _ ↦ hne
  have hstep := hweak.accept
    (show (slots h narrow false [tag.name]).Accepts (.startTag tag) from haccepts)
  have htoken : (slots h narrow false [tag.name]).token (.startTag tag) = .startTag tag := by
    rw [Relabeling.token, Relabeling.tag, slots_rename_ne fun heq ↦
      h.ne_of_isReserved hreserved heq]
  rwa [htoken] at hstep

end TextElements

/-! ## Texts in step -/

/-- Two texts that lead on from builders that are the same but for the names to such builders. -/
def InStep {new : String} (h : IsFresh new) (narrow : Bool) (text text' : List Char) : Prop :=
  ∀ ⦃b b' : Builder⦄ ⦃limit limit' : Nat⦄, Tracks (slots h narrow false []) b b' →
    text.length < limit → text'.length < limit' →
      Tracks (slots h narrow false []) (b.readAll limit text) (b'.readAll limit' text')

namespace InStep

variable {text text' : List Char}

theorem nil : InStep h narrow [] [] := by
  intro b b' limit limit' hb _ _
  have hend (limit : Nat) (b : Builder) : b.readAll limit [] = b := by cases limit <;> rfl
  rwa [hend, hend]

/-- A part that is read as neutral tokens in both texts. -/
theorem part {cs cs' : List Char} (hne : cs ≠ []) (hne' : cs' ≠ [])
    (hread : ∀ foreign, ∃ tokens, (∀ token ∈ tokens, (slots h narrow false []).Accepts token) ∧
      Token.readMarkup foreign (cs ++ text) = (tokens, text) ∧
      Token.readMarkup foreign (cs' ++ text') =
        (tokens.map (slots h narrow false []).token, text'))
    (hrest : InStep h narrow text text') : InStep h narrow (cs ++ text) (cs' ++ text') := by
  intro b b' limit limit' hb hlimit hlimit'
  obtain ⟨tokens, htokens, hmarkup, hmarkup'⟩ := hread (b.current.name.vocabulary != .html)
  have hreading := hb.reading_eq
  obtain ⟨more, more', next', hmore, hmore', hnext, hall, hall'⟩ :=
    hb.exists_readAll hne hne' htokens (hreading ▸ hmarkup) (hreading ▸ hmarkup') hlimit hlimit'
  rw [hall, hall']
  exact hrest hnext hmore hmore'

/-- A part that is read in the same way in both texts. -/
theorem same (cs : List Char) (hne : cs ≠ [])
    (hread : ∀ foreign, ∃ tokens, (∀ token ∈ tokens, token.isNeutral new narrow = true) ∧
      Token.readMarkup foreign (cs ++ text) = (tokens, text) ∧
      Token.readMarkup foreign (cs ++ text') = (tokens, text'))
    (hrest : InStep h narrow text text') : InStep h narrow (cs ++ text) (cs ++ text') := by
  refine part hne hne (fun foreign ↦ ?_) hrest
  obtain ⟨tokens, htokens, hmarkup, hmarkup'⟩ := hread foreign
  have hneutral (token : Token) (hmem : token ∈ tokens) :
      (slots h narrow false []).Accepts token ∧ (slots h narrow false []).token token = token := by
    refine accepts_of_isNeutral (htokens token hmem) fun tag heq ↦ ?_
    refine Token.lower_of_mem_readMarkup foreign (cs ++ text) ?_
    rw [hmarkup]
    exact heq ▸ hmem
  have hself : tokens.map (slots h narrow false []).token = tokens :=
    (List.map_congr_left fun token hmem ↦ (hneutral token hmem).2).trans (List.map_id _)
  exact ⟨tokens, fun token hmem ↦ (hneutral token hmem).1, hmarkup, hself.symm ▸ hmarkup'⟩

/-- A run of characters, up to what ends it. -/
theorem run {cs : List Char} (hcs : ∀ c ∈ cs, c ≠ '<' ∧ c ≠ '\x00')
    (hstops : Token.stops text = true) (hstops' : Token.stops text' = true)
    (hrest : InStep h narrow text text') : InStep h narrow (cs ++ text) (cs ++ text') := by
  by_cases hne : cs = []
  · subst hne
    exact hrest
  refine same cs hne (fun foreign ↦ ⟨Token.textTokens cs, fun token hmem ↦ ?_,
    Token.readMarkup_run foreign hne hcs hstops, Token.readMarkup_run foreign hne hcs hstops'⟩) hrest
  have htag := Token.not_isTag_of_mem_textTokens token hmem
  cases token <;> first | rfl | cases htag

theorem standIn (index : Nat) (hrest : InStep h narrow text text') :
    InStep h narrow (standIn index ++ text) (standIn index ++ text') := by
  intro b b' limit limit' hb hlimit hlimit'
  have hopened := hb.accept_standInOpening index
  have hreading {standIns : Bool} {b b' : Builder} (hb : Tracks (slots h narrow standIns []) b b') :
      b'.reading = .markup :=
    (congrArg Plan.reading hb.plan_eq).trans hb.reading_eq
  simp only [NotebookTree.standIn, List.append_assoc] at hlimit hlimit' ⊢
  obtain ⟨opened, hopen, hall⟩ :=
    exists_readAll_tag hb.reading_eq (Token.written_openTag index) hlimit
  obtain ⟨opened', hopen', hall'⟩ :=
    exists_readAll_tag (hreading hb) (Token.written_openTag index) hlimit'
  obtain ⟨closed, hclose, hrest₁⟩ :=
    exists_readAll_tag hopened.reading_eq Token.written_closeTag hopen
  obtain ⟨closed', hclose', hrest₂⟩ :=
    exists_readAll_tag (hreading hopened) Token.written_closeTag hopen'
  rw [hall, hall', hrest₁, hrest₂]
  exact hrest (hb.accept_standIn index) hclose hclose'

theorem stops_of_head?_eq {text : List Char} (h : text.head? = some '<') :
    Token.stops text = true := by
  rw [Token.stops, h]
  rfl

theorem exists_normalizeLineEnds_eq {markup : List Char} (h : markup.head? = some '<')
    (more : List Char) : ∃ rest, normalizeLineEnds markup ++ more = '<' :: rest := by
  obtain ⟨rest, rfl⟩ := List.head?_eq_some_iff.1 h
  exact ⟨normalizeLineEnds rest ++ more, by rw [normalizeLineEnds_cons (by decide)]; rfl⟩

/-- A tag of the new name in one text, and of the stand-ins' name in the other. -/
theorem named (token : Token) {pending markup markup' : List Char}
    (hpending : ∀ c ∈ pending, c ≠ '<' ∧ c ≠ '\x00')
    (haccepts : (slots h narrow false []).Accepts token)
    (hwritten : Token.Written token markup)
    (hwritten' : Token.Written ((slots h narrow false []).token token) markup')
    (hrest : InStep h narrow text text') :
    InStep h narrow (pending ++ (markup ++ text)) (pending ++ (markup' ++ text')) := by
  obtain ⟨more, rfl⟩ := hwritten.exists_eq_cons
  obtain ⟨more', rfl⟩ := hwritten'.exists_eq_cons
  refine run hpending rfl rfl (part (List.cons_ne_nil _ _) (List.cons_ne_nil _ _)
    (fun foreign ↦ ⟨[token], List.forall_mem_singleton.2 haccepts, ?_, ?_⟩) hrest)
  · exact hwritten.readMarkup_append foreign text
  · exact hwritten'.readMarkup_append foreign text'

theorem acceptsTag_new {tag : Tag} (hname : tag.name = new) :
    (slots h narrow false []).AcceptsTag tag := by
  have hnot {known : List String} (hknown : ∀ name ∈ known, isReserved name = true) :
      tag.name ∉ known := fun hmem ↦
    h.ne_of_isReserved (hknown _ hmem) hname
  refine slots_acceptsTag (hname ▸ h.lower_eq) ?_ (fun hmem ↦ absurd hmem (hnot (by decide)))
    fun _ ↦ hname ▸ h.ne_standInTag
  cases narrow with
  | true => exact hnot (by decide)
  | false => exact hnot (by decide)

/-- The end tag of an element that holds text alone. -/
theorem readAll_textEnd {name : String} (hmem : name ∈ textTags) (hname : name ≠ "plaintext")
    {closing : List Char} (hclosing : Token.Written (.endTag name) closing)
    (hrest : InStep h narrow text text') {limit limit' : Nat}
    (hb : Tracks (slots h narrow false [name]) b b') (hlimit : (closing ++ text).length < limit)
    (hlimit' : (closing ++ text').length < limit') :
    Tracks (slots h narrow false []) (b.readAll limit (closing ++ text))
      (b'.readAll limit' (closing ++ text')) := by
  have hne : closing ≠ [] := by
    obtain ⟨rest, rfl⟩ := hclosing.exists_eq_cons
    exact List.cons_ne_nil _ _
  have hreading : b'.reading = b.reading := congrArg Plan.reading hb.plan_eq
  have hread (foreign : Bool) (text : List Char) :=
    Token.read_closing hmem (hb.reading_cases hname) hclosing foreign text
  obtain ⟨more, hmore, hall⟩ := exists_readAll_eq_of_read hne (hread _ text) hlimit
  obtain ⟨more', hmore', hall'⟩ :=
    exists_readAll_eq_of_read (b := b') hne (hreading ▸ hread _ text') hlimit'
  rw [hall, hall']
  exact hrest (hb.accept_textEnd hmem hname) hmore hmore'

/-- An element that holds text alone. -/
theorem textElement {tag : Tag} {opening value closing : List Char} (hmem : tag.name ∈ textTags)
    (hbarred : tag.name ∉ "plaintext" :: (if narrow then hostTags else narrowTags))
    (hvalue : ∀ c ∈ value, c ≠ '<' ∧ c ≠ '\x00')
    (hopening : Token.Written (.startTag tag) opening)
    (hclosing : Token.Written (.endTag tag.name) closing)
    (hrest : InStep h narrow text text') :
    InStep h narrow (opening ++ (value ++ (closing ++ text)))
      (opening ++ (value ++ (closing ++ text'))) := by
  rw [List.mem_cons, not_or] at hbarred
  intro b b' limit limit' hb hlimit hlimit'
  have hreading : b'.reading = b.reading := congrArg Plan.reading hb.plan_eq
  obtain ⟨more, hmore, hall⟩ := exists_readAll_tag hb.reading_eq hopening hlimit
  obtain ⟨more', hmore', hall'⟩ :=
    exists_readAll_tag (hreading.trans hb.reading_eq) hopening hlimit'
  have hstart := hb.accept_textStart hmem hbarred.2
  rw [hall, hall']
  by_cases hne : value = []
  · subst hne
    exact readAll_textEnd hmem hbarred.1 hclosing hrest hstart hmore hmore'
  obtain ⟨tokens, htokens, hread⟩ := Token.exists_read_text hmem (hstart.reading_cases hbarred.1)
    hclosing hne hvalue ((b.accept (.startTag tag)).current.name.vocabulary != .html)
  have hplain (token : Token) (htoken : token ∈ tokens) :
      (slots h narrow false [tag.name]).Accepts token ∧
        (slots h narrow false [tag.name]).token token = token := by
    have htag := htokens token htoken
    cases token <;> first | exact ⟨trivial, rfl⟩ | cases htag
  have hself : tokens.map (slots h narrow false [tag.name]).token = tokens :=
    (List.map_congr_left fun token htoken ↦ (hplain token htoken).2).trans (List.map_id _)
  obtain ⟨after, after', next', hafter, hafter', hnext, hvalues, hvalues'⟩ :=
    hstart.exists_readAll hne hne (fun token htoken ↦ (hplain token htoken).1) (hread text)
      (hself.symm ▸ hread text') hmore hmore'
  rw [hvalues, hvalues']
  exact readAll_textEnd hmem hbarred.1 hclosing hrest hnext hafter hafter'

/-- Respelled texts are read in step. The characters that are pending come before them. -/
theorem of_respelled (hrespelled : Respelled new narrow true text text') (pending : List Char)
    (hpending : ∀ c ∈ pending, c ≠ '<' ∧ c ≠ '\x00') :
    InStep h narrow (pending ++ normalizeLineEnds text) (pending ++ normalizeLineEnds text') := by
  induction hrespelled generalizing pending with
  | nil => exact run hpending rfl rfl nil
  | @character c text text' hless hrest ih =>
    -- A character goes on with the run, unless it is a null character.
    have hgoesOn (c : Char) (hless : c ≠ '<') (hnull : c ≠ '\x00') :
        InStep h narrow (pending ++ c :: normalizeLineEnds text)
          (pending ++ c :: normalizeLineEnds text') := by
      have hmore : ∀ d ∈ pending ++ [c], d ≠ '<' ∧ d ≠ '\x00' := by
        intro d hmem
        rcases List.mem_append.1 hmem with hmem | hmem
        · exact hpending d hmem
        · rw [List.mem_singleton.1 hmem]
          exact ⟨hless, hnull⟩
      have hstep := ih _ hmore
      rwa [List.append_assoc, List.append_assoc] at hstep
    by_cases hreturn : c = '\r'
    · subst hreturn
      by_cases hfeed : text.head? = some '\n'
      · -- The two characters are one line end in both texts.
        obtain ⟨rest, rfl⟩ := List.head?_eq_some_iff.1 hfeed
        obtain ⟨rest', rfl⟩ := List.head?_eq_some_iff.1 (hrest.head?_eq.trans hfeed)
        have hstep := ih pending hpending
        rwa [normalizeLineEnds_cons (by decide), normalizeLineEnds_cons (by decide)] at hstep
      · rw [normalizeLineEnds_return hfeed, normalizeLineEnds_return (hrest.head?_eq ▸ hfeed)]
        exact hgoesOn '\n' (by decide) (by decide)
    rw [normalizeLineEnds_cons hreturn, normalizeLineEnds_cons hreturn]
    by_cases hnull : c = '\x00'
    · subst hnull
      refine run hpending rfl rfl (same ['\x00'] (List.cons_ne_nil _ _) (fun foreign ↦ ?_)
        (ih [] nofun))
      exact ⟨[.nullCharacter], by simp [Token.isNeutral], rfl, rfl⟩
    · exact hgoesOn c hless hnull
  | @lessThan c text text' hhead hstarts hrest ih =>
    rw [normalizeLineEnds_cons (by decide), normalizeLineEnds_cons (by decide)]
    refine run hpending rfl rfl (same ['<'] (List.cons_ne_nil _ _) (fun foreign ↦ ?_)
      (ih [] nofun))
    have hread {text : List Char} (hhead : text.head? = some c) :
        Token.readMarkup foreign ('<' :: normalizeLineEnds text) =
          ([.characters ['<']], normalizeLineEnds text) := by
      have hstarts' : startsMarkup (if c = '\r' then '\n' else c) = false := by
        split
        · decide
        · exact hstarts
      have hhead' := head?_normalizeLineEnds text
      rw [hhead] at hhead'
      obtain ⟨rest, hrest⟩ := List.head?_eq_some_iff.1 hhead'
      rw [hrest]
      exact Token.readMarkup_lessThan foreign rest hstarts'
    exact ⟨[.characters ['<']], by simp [Token.isNeutral], hread hhead,
      hread (hrest.head?_eq.trans hhead)⟩
  | @neutral markup text text' hmarkup _ ih =>
    have hhead : markup.head? = some '<' := by
      obtain ⟨rest, rfl⟩ := hmarkup.exists_rest
      rfl
    have hstops (more : List Char) : Token.stops (normalizeLineEnds markup ++ more) = true := by
      obtain ⟨rest, hrest⟩ := exists_normalizeLineEnds_eq hhead more
      exact stops_of_head?_eq (congrArg List.head? hrest)
    rw [normalizeLineEnds_append hmarkup.getLast?_ne, normalizeLineEnds_append hmarkup.getLast?_ne]
    refine run hpending (hstops _) (hstops _) (same _ ?_ (fun foreign ↦ ?_) (ih [] nofun))
    · obtain ⟨rest, hrest⟩ := exists_normalizeLineEnds_eq hhead []
      rw [List.append_nil] at hrest
      exact hrest ▸ List.cons_ne_nil _ _
    · obtain ⟨tokens, htokens, hread⟩ := hmarkup.reads foreign
      exact ⟨tokens, htokens, hread _, hread _⟩
  | @textElement tag opening value closing text text' hmem hbarred hvalue hopening hclosing _ ih =>
    have hsplit (text : List Char) :
        normalizeLineEnds (opening ++ (value ++ (closing ++ text))) =
          normalizeLineEnds opening ++ (normalizeLineEnds value ++
            (normalizeLineEnds closing ++ normalizeLineEnds text)) := by
      have hhead : (closing ++ text).head? ≠ some '\n' := by
        obtain ⟨rest, rfl⟩ := List.head?_eq_some_iff.1 hclosing.head?_eq
        exact fun heq ↦ absurd (Option.some.inj heq) (show ¬('<' : Char) = '\n' by decide)
      rw [normalizeLineEnds_append hopening.getLast?_ne, normalizeLineEnds_append_of_head? hhead,
        normalizeLineEnds_append hclosing.getLast?_ne]
    have hvalue' : ∀ c ∈ normalizeLineEnds value, c ≠ '<' ∧ c ≠ '\x00' := by
      intro c hmem
      rcases of_mem_normalizeLineEnds hmem with rfl | hmem
      · decide
      · exact hvalue c hmem
    have hstops (more : List Char) : Token.stops (normalizeLineEnds opening ++ more) = true := by
      obtain ⟨rest, hrest⟩ := exists_normalizeLineEnds_eq hopening.head?_eq more
      exact stops_of_head?_eq (congrArg List.head? hrest)
    rw [hsplit, hsplit]
    exact run hpending (hstops _) (hstops _)
      (textElement hmem hbarred hvalue' hopening hclosing (ih [] nofun))
  | @opening markup markup' text text' tag hname hwritten hwritten' _ ih =>
    have htoken : (slots h narrow false []).token (.startTag tag) =
        .startTag { tag with name := standInTag } := by
      rw [Relabeling.token, Relabeling.tag, hname, slots_rename_new]
    rw [normalizeLineEnds_append hwritten.getLast?_ne,
      normalizeLineEnds_append hwritten'.getLast?_ne]
    exact named (.startTag tag) hpending (acceptsTag_new hname) hwritten (htoken ▸ hwritten')
      (ih [] nofun)
  | @closing markup markup' text text' hwritten hwritten' _ ih =>
    have htoken : (slots h narrow false []).token (.endTag new) = .endTag standInTag := by
      rw [Relabeling.token, slots_rename_new]
    rw [normalizeLineEnds_append hwritten.getLast?_ne,
      normalizeLineEnds_append hwritten'.getLast?_ne]
    exact named (.endTag new) hpending (slots_acceptsEnd h.ne_standInTag) hwritten
      (htoken ▸ hwritten') (ih [] nofun)
  | @standIn text text' index _ _ ih =>
    have hreturn := Token.return_not_mem_standIn index
    rw [normalizeLineEnds_append_of_not_mem hreturn, normalizeLineEnds_append_of_not_mem hreturn]
    exact run hpending rfl rfl (standIn index (ih [] nofun))

end InStep

theorem tracks_empty : Tracks (slots h narrow false []) empty empty where
  eq_relabel := by
    have htree : empty.tree.relabel (slots h narrow false []) = empty.tree := by
      rw [empty, Dom.relabel, Relabeling.title_eq_self _ (by decide)]
      rfl
    rw [relabel, htree]
    exact congrArg (fun element ↦ { empty with stack := [element] }) openElement_wrapper.symm
  admits := by
    intro element hmem
    rw [List.mem_singleton.1 hmem]
    exact ⟨fun _ ↦ isApart_of_lower (by decide) (by decide), by cases narrow <;> decide⟩
  keeps := nofun
  plan := .content ⟨allows_of_not_mem (by decide), nofun, .inl rfl⟩
  html_of_text := nofun

/-- What is left at the end is placed in both builders alike. -/
theorem Tracks.tree_atEnd (hb : Tracks (slots h narrow false []) b b') :
    b'.atEnd.tree = b.atEnd.tree.relabel (slots h narrow false []) := by
  rw [atEnd, atEnd, hb.mode_eq]
  split
  · next hmode =>
    rw [(hb.placeTableText (eq_of_beq hmode)).eq_relabel]
    rfl
  · rw [hb.eq_relabel]
    rfl

/-- The trees of respelled texts are the same but for the names. -/
theorem tree_readAll_of_respelled (h : IsFresh new) {text text' : List Char}
    (hrespelled : Respelled new narrow true text text') :
    ((empty.readAll ((normalizeLineEnds text').length + 1) (normalizeLineEnds text')).atEnd).tree =
      ((empty.readAll ((normalizeLineEnds text).length + 1)
        (normalizeLineEnds text)).atEnd).tree.relabel (slots h narrow false []) :=
  (InStep.of_respelled (h := h) hrespelled [] nofun tracks_empty
    (Nat.lt_succ_self _) (Nat.lt_succ_self _)).tree_atEnd

end Builder

/-! ## Compiling -/

section Compiling

variable {r : Relabeling} {limit : Nat}

mutual

theorem lowerNode_finish_relabel (hattributes : ∀ attributes, r.attributes attributes = attributes) :
    ∀ (tree : Dom) (depth : Nat), lowerNode limit depth (tree.relabel r).finish =
      (lowerNode limit depth tree.finish).map (Node.mapTagsAll r.title)
  | .text value, _ => rfl
  | .comment, _ => rfl
  | .contents id children, _ => rfl
  | .element id name attributes children, depth => by
    rw [Dom.relabel, Dom.finish, Dom.finish, lowerNode, lowerNode, hattributes]
    split
    · rfl
    · have hchildren : lowerNodes limit (depth + 1)
          (Dom.finishAll (Dom.relabelAll r children) []) =
            (lowerNodes limit (depth + 1) (Dom.finishAll children [])).map
              (Node.mapTagsAll r.title) :=
        lowerNodes_finishAll_relabelAll hattributes children (depth + 1) rfl
      rw [hchildren]
      cases lowerNodes limit (depth + 1) (Dom.finishAll children []) with
      | error error => rfl
      | ok lowered => rfl

theorem lowerNodes_finishAll_relabelAll
    (hattributes : ∀ attributes, r.attributes attributes = attributes) :
    ∀ (trees : List Dom) (depth : Nat) {after after' : List HtmlNode},
      lowerNodes limit depth after' =
        (lowerNodes limit depth after).map (Node.mapTagsAll r.title) →
      lowerNodes limit depth (Dom.finishAll (Dom.relabelAll r trees) after') =
        (lowerNodes limit depth (Dom.finishAll trees after)).map (Node.mapTagsAll r.title)
  | [], _, _, _, hafter => hafter
  | tree :: older, depth, after, after', hafter => by
    rw [Dom.relabelAll, Dom.finishAll, Dom.finishAll]
    refine lowerNodes_finishAll_relabelAll hattributes older depth ?_
    rw [lowerNodes, lowerNodes, lowerNode_finish_relabel hattributes tree depth, hafter]
    cases lowerNode limit depth tree.finish with
    | error error => rfl
    | ok first =>
      cases lowerNodes limit depth after with
      | error error => rfl
      | ok others => exact congrArg Except.ok (Node.mapTagsAll_append _ first others).symm

end

/-- A fragment with other names in its tree compiles to nodes with these names. -/
theorem lowerNodes_relabel (hattributes : ∀ attributes, r.attributes attributes = attributes)
    (tree : Dom) :
    lowerNodes limit 1 (match (tree.relabel r).finish with
      | .element _ _ children => children
      | other => [other]) =
    (lowerNodes limit 1 (match tree.finish with
      | .element _ _ children => children
      | other => [other])).map (Node.mapTagsAll r.title) := by
  cases tree with
  | element id name attributes children =>
    exact lowerNodes_finishAll_relabelAll hattributes children 1 rfl
  | text value => rfl
  | comment => rfl
  | contents id children => rfl

end Compiling

/-- The stand-ins' name in place of the new one. -/
def slotName (new name : String) : String :=
  if name = new then standInTag else name

theorem parseFragment_ofList_cons_mark (cs : List Char) :
    parseFragment (String.ofList ('\ufeff' :: cs)) =
      match ((Builder.empty.readAll ((normalizeLineEnds cs).length + 1)
        (normalizeLineEnds cs)).atEnd).tree.finish with
      | .element _ _ children => children
      | other => [other] := by
  unfold parseFragment
  rw [String.toList_ofList]
  rfl

/-- Respelled texts compile to the same nodes but for the name of some elements, or fail alike. -/
theorem compileFragment_of_respelled {new : String} (h : IsFresh new) {narrow : Bool}
    {text text' : List Char} (hrespelled : Respelled new narrow true text text') (limit : Nat) :
    compileFragment limit (String.ofList text') =
      (compileFragment limit (String.ofList text)).map (Node.mapTagsAll (slotName new)) := by
  rw [compileFragment_eq, compileFragment_eq]
  by_cases hmark : text.head? = some '\ufeff'
  · obtain ⟨rest, rfl⟩ := List.head?_eq_some_iff.1 hmark
    obtain ⟨rest', rfl⟩ := List.head?_eq_some_iff.1 (hrespelled.head?_eq.trans hmark)
    rw [parseFragment_ofList_cons_mark, parseFragment_ofList_cons_mark,
      Builder.tree_readAll_of_respelled h (hrespelled.of_cons (by decide))]
    exact lowerNodes_relabel (fun _ ↦ rfl) _
  · rw [parseFragment_ofList hmark, parseFragment_ofList (hrespelled.head?_eq ▸ hmark)]
    rw [Builder.tree_readAll_of_respelled h hrespelled]
    exact lowerNodes_relabel (fun _ ↦ rfl) _

end Html

end NotebookTree
