import NotebookTree.Proofs.Html.Arrival
import NotebookTree.Proofs.Html.TextElement

/-!
# Text in elements that hold text alone

Such an element is read by its own rules in HTML, and as markup inside SVG and MathML. Its text is
read back where what is written for it is read as that text in each way in which it may be read.
-/

namespace NotebookTree.Html

namespace Token

/-! ## Scripts -/

theorem dropStartAnyCase?_append_of_eq_some {start cs rest : List Char}
    (h : Text.dropStartAnyCase? start cs = some rest) (more : List Char) :
    Text.dropStartAnyCase? start (cs ++ more) = some (rest ++ more) := by
  induction start generalizing cs with
  | nil =>
    cases h
    rfl
  | cons p start ih =>
    cases cs with
    | nil => cases h
    | cons c cs =>
      rw [Text.dropStartAnyCase?] at h
      rw [List.cons_append, Text.dropStartAnyCase?]
      split at h
      · next hc => rw [if_pos hc, ih h]
      · cases h

/-- Where a closing tag starts inside a text does not depend on what comes after the text. -/
theorem startsClosing_append {closing : String} (hclosing : '<' ∉ closing.toList) {c : Char}
    (text more : List Char) :
    startsClosing closing (c :: (text ++ '<' :: more)) = startsClosing closing (c :: text) := by
  refine Bool.eq_iff_iff.2 ⟨startsClosing_of_append hclosing, fun h ↦ ?_⟩
  unfold startsClosing at h ⊢
  split at h
  · next d after hafter =>
    rw [← List.cons_append, dropStartAnyCase?_append_of_eq_some hafter]
    exact h
  · cases h

theorem ScriptState.next_eq_of_head? (state : ScriptState) (c : Char) {rest rest' : List Char}
    (h : rest.head? = rest'.head?) : state.next c rest = state.next c rest' := by
  have hescaped (dashes : Nat) : inEscaped dashes c rest = inEscaped dashes c rest' := by
    cases rest <;> cases rest' <;> simp_all [inEscaped]
  cases state <;> simp only [next, hescaped]

/-- A character that starts no comment. -/
theorem scriptText_cons (state : ScriptState) {c : Char} {rest : List Char}
    (h : ∀ after, c = '<' → rest ≠ '!' :: '-' :: '-' :: after) :
    scriptText state (c :: rest) =
      if state.canEnd && startsClosing "script" (c :: rest) then ([], c :: rest)
      else
        (c :: (scriptText (state.next c rest) rest).1,
          (scriptText (state.next c rest) rest).2) := by
  rw [scriptText]
  exact fun after hc hrest ↦ h after hc hrest

theorem ne_comment_of_startsClosing {more : List Char}
    (h : startsClosing "script" ('<' :: more) = true) (after : List Char) :
    more ≠ '!' :: '-' :: '-' :: after := by
  rintro rfl
  exact absurd h (by simp [startsClosing, Text.dropStartAnyCase?, Text.lowerAscii])

theorem scriptText_comment (rest : List Char) :
    scriptText .normal ('<' :: '!' :: '-' :: '-' :: rest) =
      ('<' :: '!' :: '-' :: '-' :: (scriptText (.escaped 2) rest).1,
        (scriptText (.escaped 2) rest).2) := by
  rw [scriptText]

theorem scriptText_comment_of_ne {state : ScriptState} (h : state ≠ .normal) (rest : List Char) :
    scriptText state ('<' :: '!' :: '-' :: '-' :: rest) =
      ('<' :: (scriptText (state.next '<' ('!' :: '-' :: '-' :: rest))
          ('!' :: '-' :: '-' :: rest)).1,
        (scriptText (state.next '<' ('!' :: '-' :: '-' :: rest))
          ('!' :: '-' :: '-' :: rest)).2) := by
  rw [scriptText]
  exact h

/-- A text without a closing tag that can end the script goes up to the closing tag. -/
theorem scriptText_append {more more' : List Char}
    (hmore : startsClosing "script" ('<' :: more) = true)
    (hmore' : startsClosing "script" ('<' :: more') = true) (text : List Char)
    {state : ScriptState} (h : scriptText state (text ++ '<' :: more) = (text, '<' :: more)) :
    scriptText state (text ++ '<' :: more') = (text, '<' :: more') := by
  induction hlength : text.length using Nat.strongRecOn generalizing text state with
  | _ length ih =>
    subst hlength
    cases text with
    | nil =>
      rw [List.nil_append, scriptText_cons state fun after _ ↦
        ne_comment_of_startsClosing hmore after, hmore, Bool.and_true] at h
      rw [List.nil_append, scriptText_cons state fun after _ ↦
        ne_comment_of_startsClosing hmore' after, hmore', Bool.and_true]
      by_cases hend : state.canEnd = true
      · rw [if_pos hend]
      · rw [if_neg hend] at h
        cases h
    | cons c rest =>
      -- What is left of the text is shorter, and is read in the same state.
      have ihRest (text : List Char) (hlt : text.length < (c :: rest).length) {state : ScriptState}
          (read : List Char → List Char) (hread : Function.Injective read)
          (h : (read (scriptText state (text ++ '<' :: more)).1,
            (scriptText state (text ++ '<' :: more)).2) = (read text, '<' :: more)) :
          (read (scriptText state (text ++ '<' :: more')).1,
            (scriptText state (text ++ '<' :: more')).2) = (read text, '<' :: more') := by
        obtain ⟨hfirst, hsecond⟩ := Prod.mk.inj h
        rw [ih _ hlt text (Prod.ext (hread hfirst) hsecond) rfl]
      have hcons (c : Char) : Function.Injective (c :: · : List Char → List Char) := fun _ _ heq ↦
        (List.cons.inj heq).2
      by_cases hcomment : ∃ after, c = '<' ∧ rest = '!' :: '-' :: '-' :: after
      · obtain ⟨after, rfl, rfl⟩ := hcomment
        by_cases hstate : state = .normal
        · subst hstate
          rw [List.cons_append, List.cons_append, List.cons_append, List.cons_append,
            scriptText_comment] at h ⊢
          exact ihRest after (by simp; omega) ('<' :: '!' :: '-' :: '-' :: ·)
            (fun _ _ heq ↦ by simpa using heq) h
        · rw [List.cons_append, List.cons_append, List.cons_append, List.cons_append,
            scriptText_comment_of_ne hstate] at h ⊢
          rw [← state.next_eq_of_head? '<' rfl]
          exact ihRest ('!' :: '-' :: '-' :: after) (by simp) ('<' :: ·) (hcons '<') h
      · have hne (more : List Char) (after : List Char) (hc : c = '<') :
            rest ++ '<' :: more ≠ '!' :: '-' :: '-' :: after := by
          intro heq
          match rest, heq with
          | [], heq | [_], heq | [_, _], heq => simp at heq
          | _ :: _ :: _ :: others, heq =>
            simp only [List.cons_append, List.cons.injEq] at heq
            obtain ⟨rfl, rfl, rfl, -⟩ := heq
            exact hcomment ⟨others, hc, rfl⟩
        have hnext : state.next c (rest ++ '<' :: more) = state.next c (rest ++ '<' :: more') :=
          state.next_eq_of_head? c (by cases rest <;> rfl)
        have hless : '<' ∉ "script".toList := by decide
        rw [List.cons_append, scriptText_cons state (hne more), startsClosing_append hless,
          hnext] at h
        rw [List.cons_append, scriptText_cons state (hne more'), startsClosing_append hless]
        split at h
        · cases h
        · next hnot =>
          rw [if_neg hnot]
          exact ihRest rest (by simp) (c :: ·) (hcons c) h

/-! ## Texts that are read back -/

/-- A text without ampersands has no character references. -/
theorem textTokens_of_not_mem {cs : List Char} (h : '&' ∉ cs) :
    textTokens cs = [.characters cs] := by
  have hfaulty : startsFaulty cs = false := by
    unfold startsFaulty
    split
    · exact absurd List.mem_cons_self h
    · rfl
  rw [textTokens, hfaulty, decoded, decode_eq_self h]
  rfl

/-- Is what is written for an element that holds text alone read as the given text? If there may be
foreign elements, it may be read as markup as well. -/
def readsAs (foreign : Bool) (name : String) (written value : List Char) : Bool :=
  if name ∈ ["textarea", "title"] then
    written == Node.escapeText value && (name == "title" || value.head? != some '\n')
  else
    written == value &&
      (value.all (fun c ↦ c != '<' && c != '&') || !foreign &&
        if name = "script" then
          scriptText .normal (value ++ Node.closeTag name) == (value, Node.closeTag name)
        else beforeClosing name value == (value, []))

section ReadsAs

variable {foreign : Bool} {name : String} {written value closing : List Char}

theorem map_withoutNull_eq_self {cs : List Char} (h : '\x00' ∉ cs) : cs.map withoutNull = cs :=
  (List.map_congr_left fun c hc ↦ if_neg fun heq : c = '\x00' ↦ h (heq ▸ hc)).trans (List.map_id cs)

/-- What is written for a text is empty only if the text is. -/
theorem readsAs_nil (h : readsAs foreign name [] value = true) : value = [] := by
  unfold readsAs at h
  split at h
  · simp only [Bool.and_eq_true, beq_iff_eq] at h
    by_contra hne
    exact escapeText_ne_nil hne h.1.symm
  · simp only [Bool.and_eq_true, beq_iff_eq] at h
    exact h.1.symm

/-- A line feed that would be dropped does not come first. -/
theorem head?_ne_of_readsAs (h : readsAs foreign "textarea" written value = true) :
    value.head? ≠ some '\n' := by
  simp only [readsAs, List.mem_cons, true_or, if_true, Bool.and_eq_true] at h
  simpa using h.2

/-- In HTML the text is read back by the rules of the element. -/
theorem read_textReading_of_readsAs (hname : name ∈ textTags)
    (h : readsAs foreign name written value = true) (hne : written ≠ []) (hnull : '\x00' ∉ value)
    (hclosing : Written (.endTag name) closing) (inForeign : Bool) (more : List Char) :
    read (textReading name) inForeign (written ++ (closing ++ more)) =
      ([.characters value], closing ++ more) := by
  have hplain : Entity.replacement ∉ name.toList ∧ '<' ∉ name.toList :=
    (show ∀ name ∈ textTags, Entity.replacement ∉ name.toList ∧ '<' ∉ name.toList by decide)
      name hname
  have hstarts := hclosing.startsClosing hplain.1 more
  obtain ⟨rest, hrest⟩ := hclosing.exists_closing more
  rw [hrest] at hstarts ⊢
  unfold readsAs at h
  unfold textReading
  split at h
  · next hescapable =>
    have hnotScript : name ≠ "script" := by
      rintro rfl
      exact absurd hescapable (by decide)
    simp only [Bool.and_eq_true, beq_iff_eq] at h
    have hless : '<' ∉ written := by
      rw [h.1]
      intro hmem
      rcases of_mem_escapeText hmem with ⟨-, hne⟩ | hmem
      · exact hne rfl
      · exact absurd hmem (by decide)
    have hwritten : '\x00' ∉ written := by
      rw [h.1]
      intro hmem
      rcases of_mem_escapeText hmem with ⟨hmem, -⟩ | hmem
      · exact hnull hmem
      · exact absurd hmem (by decide)
    rw [if_neg hnotScript, if_pos hescapable, read,
      beforeClosing_append hplain.2 (beforeClosing_of_not_mem hless) hstarts]
    refine (textOrClosing_of_ne_nil _ hne _).trans ?_
    rw [map_withoutNull_eq_self hwritten, h.1, textTokens_escapeText]
  · next hescapable =>
    simp only [Bool.and_eq_true, beq_iff_eq] at h
    obtain ⟨rfl, h⟩ := h
    have hless (h : written.all (fun c ↦ c != '<' && c != '&') = true) : '<' ∉ written := by
      intro hmem
      simpa using List.all_eq_true.1 h _ hmem
    split
    · next hscript =>
      subst hscript
      have htext : scriptText .normal (written ++ '<' :: '/' :: rest) =
          (written, '<' :: '/' :: rest) := by
        rcases Bool.or_eq_true_iff.1 h with h | h
        · exact scriptText_append_of_not_mem (hless h) hstarts
        · simp only [if_pos, Bool.and_eq_true, beq_iff_eq] at h
          exact scriptText_append (by decide) hstarts written h.2
      rw [read, htext]
      exact (textOrClosing_of_ne_nil _ hne _).trans (by rw [map_withoutNull_eq_self hnull])
    · next hscript =>
      have htext : beforeClosing name written = (written, []) := by
        rcases Bool.or_eq_true_iff.1 h with h | h
        · exact beforeClosing_of_not_mem (hless h)
        · simp only [if_neg hscript, Bool.and_eq_true, beq_iff_eq] at h
          exact h.2
      rw [read, beforeClosing_append hplain.2 htext hstarts]
      exact (textOrClosing_of_ne_nil _ hne _).trans (by rw [map_withoutNull_eq_self hnull])

/-- In foreign elements the text is read back as markup. -/
theorem readMarkup_of_readsAs (h : readsAs true name written value = true) (hne : written ≠ [])
    (hnull : '\x00' ∉ value) (hclosing : Written (.endTag name) closing) (inForeign : Bool)
    (more : List Char) :
    readMarkup inForeign (written ++ (closing ++ more)) =
      ([.characters value], closing ++ more) := by
  obtain ⟨rest, hrest⟩ := hclosing.exists_closing more
  rw [hrest]
  unfold readsAs at h
  split at h
  · simp only [Bool.and_eq_true, beq_iff_eq] at h
    rw [h.1] at hne ⊢
    have hvalue : value ≠ [] := by
      rintro rfl
      exact hne rfl
    exact readMarkup_escapeText inForeign hvalue hnull (.inr ⟨_, rfl⟩)
  · simp only [Bool.not_true, Bool.false_and, Bool.or_false, Bool.and_eq_true, beq_iff_eq,
      List.all_eq_true, bne_iff_ne] at h
    obtain ⟨rfl, hvalue⟩ := h
    have hamp : '&' ∉ written := fun hmem ↦ (hvalue _ hmem).2 rfl
    rw [readMarkup_run inForeign hne (fun c hc ↦ ⟨(hvalue c hc).1, fun heq ↦ hnull (heq ▸ hc)⟩)
      rfl, textTokens_of_not_mem hamp]

end ReadsAs

end Token

namespace Builder

variable {w : Watch} {mode : Mode} {holder : OpenElement} {below : List OpenElement}
  {ms : List Mark} {b final : Builder} {tag : Tag}

/-! ## The builder in such an element -/

/-- The builder in an element that holds text alone. -/
def holding (b : Builder) (reading : Reading) (drops : Bool) : Builder :=
  { b with outerMode := b.mode, mode := .text, reading, dropLineFeed := drops }

theorem holding_insertAt (reading : Reading) (drops : Bool) (place : Place) (node : Dom) :
    (b.holding reading drops).insertAt place node =
      (b.insertAt place node).holding reading drops := by
  cases place with
  | last id => rfl
  | beforeTable table below =>
    unfold insertAt
    dsimp only [holding]
    split <;> rfl

theorem holding_appendText (reading : Reading) (drops : Bool) (text : List Char) :
    (b.holding reading drops).appendText text = (b.appendText text).holding reading drops := by
  unfold appendText
  split
  · rfl
  · exact holding_insertAt reading drops _ _

theorem current_appendText (text : List Char) : (b.appendText text).current = b.current := by
  obtain ⟨tree, happend⟩ := exists_appendText_eq_withTree (b := b) text
  rw [happend]
  rfl

/-- The content of such an element of HTML is not foreign. -/
theorem isForeign_holding (hcurrent : b.current.name.vocabulary = .html) (reading : Reading)
    (drops : Bool) (token : Token) : ¬(b.holding reading drops).isForeign token = true := by
  have hsame : (b.holding reading drops).current = b.current := rfl
  simp [isForeign, hsame, hcurrent]

/-- Text in such an element is added to it. -/
theorem accept_characters_holding (hcurrent : b.current.name.vocabulary = .html)
    {reading : Reading} {drops : Bool} {text : List Char}
    (hdrops : drops = true → text.head? ≠ some '\n') :
    (b.holding reading drops).accept (.characters text) =
      (b.appendText text).holding reading false := by
  have haccept : (b.holding reading false).accept (.characters text) =
      (b.appendText text).holding reading false := by
    refine accept_characters_eq rfl text ?_
    rw [if_neg (isForeign_holding hcurrent reading false _)]
    exact congrArg Outcome.done (holding_appendText reading false text)
  cases drops with
  | false => exact haccept
  | true =>
    refine (accept_eq_of_ne fun rest heq ↦ ?_).trans haccept
    cases heq
    exact hdrops rfl rfl

/-- The end tag of such an element closes it. -/
theorem accept_endTag_holding (hcurrent : b.current.name.vocabulary = .html)
    (reading : Reading) (drops : Bool) (name : String) :
    (b.holding reading drops).accept (.endTag name) =
      { b.pop with outerMode := b.mode, reading := .markup, dropLineFeed := false } := by
  have haccept : (b.holding reading false).accept (.endTag name) =
      { b.pop with outerMode := b.mode, reading := .markup, dropLineFeed := false } := by
    refine accept_endTag_eq rfl name ?_
    rw [if_neg (isForeign_holding hcurrent reading false _)]
    rfl
  exact (accept_eq_of_ne fun rest heq ↦ by cases heq).trans haccept

theorem Steady.openText_eq (h : b.Steady w mode ms) (htag : tag.IsPlain w) (reading : Reading) :
    b.openText tag reading = (b.openHtml tag).holding reading false := by
  have hopen := h.openHtml htag
  simp only [openText, holding, h.mode_eq, hopen.mode_eq, hopen.dropLineFeed_eq]

namespace Flows

/-- Closing an element that holds text alone leaves the holder open. -/
theorem close_holding (h : b.Flows w holder below ms) {name : String} (hname : name ∈ textTags)
    (hcurrent : b.current.isHtml name = true) :
    Flows w holder below ms
      { b.pop with outerMode := b.mode, reading := .markup, dropLineFeed := false } := by
  have hholder : name ∉ holderTags :=
    (show ∀ name ∈ textTags, name ∉ holderTags by decide) name hname
  have hpop := h.framed.pop hholder hcurrent
  exact ⟨{ h.steady.pop with reading_eq := rfl, dropLineFeed_eq := rfl },
    ⟨hpop.isHolder, hpop.rests, { hpop.free with }⟩⟩

/-- What is written for a text is read by the rules of the element, and its end tag. -/
theorem exists_readAll_holding (h : b.Flows w holder below ms) {name : String}
    (hname : name ∈ textTags) (hcurrent : b.current.isHtml name = true)
    {foreign drops : Bool} {written value closing rest : List Char}
    (hvalue : Token.readsAs foreign name written value = true) (hnull : '\x00' ∉ value)
    (hdrops : drops = true → name = "textarea") (hclosing : Token.Written (.endTag name) closing)
    {limit : Nat} (hlimit : (written ++ (closing ++ rest)).length < limit) :
    ∃ (limit' : Nat) (b' : Builder), rest.length < limit' ∧
      b'.Flows w holder below (ms ++ value.map .char) ∧
      (b.holding (textReading name) drops).readAll limit (written ++ (closing ++ rest)) =
        b'.readAll limit' rest := by
  have hne : closing ≠ [] := by
    obtain ⟨more, rfl⟩ := hclosing.exists_eq_cons
    exact List.cons_ne_nil _ _
  have hhtml {b : Builder} (hcurrent : b.current.isHtml name = true) :
      b.current.name.vocabulary = .html := by
    rw [OpenElement.isHtml, Bool.and_eq_true] at hcurrent
    exact beq_iff_eq.1 hcurrent.1
  -- The end tag comes after the text, if there is any.
  have hend {b : Builder} {ms : List Mark} (h : b.Flows w holder below ms)
      (hcurrent : b.current.isHtml name = true) (drops : Bool) {limit : Nat}
      (hlimit : (closing ++ rest).length < limit) :
      ∃ (limit' : Nat) (b' : Builder), rest.length < limit' ∧ b'.Flows w holder below ms ∧
        (b.holding (textReading name) drops).readAll limit (closing ++ rest) =
          b'.readAll limit' rest := by
    obtain ⟨limit', hlimit', hread⟩ := exists_readAll_eq_of_read
      (b := b.holding (textReading name) drops) hne
      (Token.read_closing hname (.inr rfl) hclosing _ rest) hlimit
    rw [List.foldl_cons, List.foldl_nil, accept_endTag_holding (hhtml hcurrent)] at hread
    exact ⟨limit', _, hlimit', h.close_holding hname hcurrent, hread⟩
  by_cases hwritten : written = []
  · subst hwritten
    rw [Token.readsAs_nil hvalue, List.map_nil, List.append_nil]
    exact hend h hcurrent drops hlimit
  · obtain ⟨limit₁, hlimit₁, hread₁⟩ := exists_readAll_eq_of_read
      (b := b.holding (textReading name) drops) hwritten
      (Token.read_textReading_of_readsAs hname hvalue hwritten hnull hclosing _ rest) hlimit
    have hstart : drops = true → value.head? ≠ some '\n' := fun hdrop ↦
      Token.head?_ne_of_readsAs (hdrops hdrop ▸ hvalue)
    rw [List.foldl_cons, List.foldl_nil,
      accept_characters_holding (hhtml hcurrent) hstart] at hread₁
    obtain ⟨limit₂, b', hlimit₂, hflows, hread₂⟩ := hend (h.appendText value)
      (by rw [current_appendText]; exact hcurrent) false hlimit₁
    exact ⟨limit₂, b', hlimit₂, hflows, hread₁.trans hread₂⟩

/-! ## Its opening tag -/

/-- In a body the opening tag of an element that holds text alone opens it. -/
theorem exists_bodyStart_eq_holding (h : b.Flows w holder below ms) (hname : tag.name ∈ textTags)
    (hplaintext : tag.name ≠ "plaintext") :
    ∃ (b' : Builder) (drops : Bool), b'.Flows w holder below ms ∧
      b'.current.isHtml tag.name = true ∧ (drops = true → tag.name = "textarea") ∧
      b.bodyStart tag = b'.holding (textReading tag.name) drops := by
  have htag : tag.IsPlain w :=
    ElementName.isPlain_html
      ((show ∀ name ∈ textTags, name ≠ "template" by decide) _ hname)
      ((show ∀ name ∈ textTags, name ≠ standInTag by decide) _ hname)
  have hordinary : isModalName tag.name = false :=
    (show ∀ name ∈ textTags, isModalName name = false by decide) _ hname
  have hcurrent (b : Builder) : (b.openHtml tag).current.isHtml tag.name = true :=
    Bool.and_eq_true_iff.2 ⟨rfl, beq_self_eq_true tag.name⟩
  by_cases harea : tag.name = "textarea"
  · refine ⟨b.openHtml tag, true, h.openHtml htag hordinary, hcurrent b, fun _ ↦ harea, ?_⟩
    obtain ⟨name, attributes, selfClosing⟩ := tag
    subst harea
    exact congrArg (fun b : Builder ↦ { b with dropLineFeed := true })
      (h.steady.openText_eq htag (.escapable "textarea"))
  have hopen {b : Builder} (h : b.Flows w holder below ms) :
      ∃ (b' : Builder) (drops : Bool), b'.Flows w holder below ms ∧
        b'.current.isHtml tag.name = true ∧ (drops = true → tag.name = "textarea") ∧
        b.openText tag (textReading tag.name) = b'.holding (textReading tag.name) drops :=
    ⟨b.openHtml tag, false, h.openHtml htag hordinary, hcurrent b, nofun,
      h.steady.openText_eq htag _⟩
  by_cases hxmp : tag.name = "xmp"
  · obtain ⟨name, attributes, selfClosing⟩ := tag
    subst hxmp
    exact hopen h.closeOpenParagraph.reopenFormatting
  · obtain ⟨name, attributes, selfClosing⟩ := tag
    have hothers : name ∈ ["iframe", "noembed", "noframes", "noscript", "script", "style",
        "title"] := by
      simp only [textTags, List.mem_cons, List.not_mem_nil, or_false] at hname hplaintext ⊢
      simp_all
    simp only [List.mem_cons, List.not_mem_nil, or_false] at hothers
    rcases hothers with rfl | rfl | rfl | rfl | rfl | rfl | rfl <;> exact hopen h

/-- An opening tag in foreign content opens a foreign element, unless it ends the content. -/
theorem accept_startTag_of_isForeign (h : b.Flows w holder below ms)
    (hforeign : b.isForeign (.startTag tag) = true) (hends : Foreign.endsForeign tag = false)
    (hstandIn : tag.name ≠ standInTag) (hname : isModalName tag.name = false) :
    (b.accept (.startTag tag)).Flows w holder below ms := by
  have hstep : b.inForeign (.startTag tag) =
      .done (b.openForeign b.current.name.vocabulary tag) := by
    simp only [inForeign, hends, Bool.false_eq_true, if_false]
  rw [accept_startTag_eq h.steady.dropLineFeed_eq tag (by rw [if_pos hforeign, hstep])]
  refine ⟨h.steady.insertElement _ ⟨fun heq ↦ ?_, ?_, fun hfalse ↦ ?_⟩ _,
    h.framed.openForeign _ hname⟩
  · have hhtml : b.current.name.vocabulary = .html := congrArg ElementName.vocabulary heq
    simp [isForeign, hhtml] at hforeign
  · exact w.not_isLeaf (Foreign.tagName_ne hstandIn (by decide) _)
  · exact absurd ((h.steady.foreign_of_isForeign hforeign).symm.trans hfalse) (by decide)

/-- Preformatted text drops a line feed at its start. -/
theorem exists_accept_preformatted (h : b.Flows w holder below ms)
    (hname : tag.name ∈ ["listing", "pre"]) :
    ∃ b' : Builder, b'.Flows w holder below ms ∧
      b.accept (.startTag tag) = { b' with dropLineFeed := true } := by
  have htag : tag.IsPlain w :=
    ElementName.isPlain_html
      ((show ∀ name ∈ ["listing", "pre"], name ≠ "template" by decide) _ hname)
      ((show ∀ name ∈ ["listing", "pre"], name ≠ standInTag by decide) _ hname)
  have hordinary : isModalName tag.name = false :=
    (show ∀ name ∈ ["listing", "pre"], isModalName name = false by decide) _ hname
  have hbody (b : Builder) : b.inBody (.startTag tag) =
      { b.closeOpenParagraph.openHtml tag with dropLineFeed := true } := by
    obtain ⟨name, attributes, selfClosing⟩ := tag
    simp only [List.mem_cons, List.not_mem_nil, or_false] at hname
    rcases hname with rfl | rfl <;> rfl
  have hmode := treatsAsBody_startTag holder hordinary
  by_cases hforeign : b.isForeign (.startTag tag) = true
  · have hends : Foreign.endsForeign tag = true := by
      have hnames := (show ∀ name ∈ ["listing", "pre"], name ∈ Foreign.endingTags by decide)
        _ hname
      simp [Foreign.endsForeign, hnames]
    refine ⟨_, h.leaveForeign.closeOpenParagraph.openHtml htag hordinary,
      accept_startTag_eq h.steady.dropLineFeed_eq tag ?_⟩
    rw [if_pos hforeign, inForeign, if_pos hends, hmode _ h.leaveForeign.steady.mode_eq, hbody]
  · refine ⟨_, h.closeOpenParagraph.openHtml htag hordinary,
      accept_startTag_eq h.steady.dropLineFeed_eq tag ?_⟩
    rw [if_neg hforeign, hmode _ h.steady.mode_eq, hbody]

end Flows

/-! ## Whole elements -/

namespace Arrives

/-- An element that holds text alone is read with its text. -/
theorem textElement {opening written value closing rest : List Char}
    (h : Arrives (Flows w holder below) isTextChar ms
      (opening ++ (written ++ (closing ++ rest))) final)
    (hopening : Token.Written (.startTag tag) opening)
    (hclosing : Token.Written (.endTag tag.name) closing) (hname : tag.name ∈ textTags)
    (hplaintext : tag.name ≠ "plaintext") (hnull : '\x00' ∉ value)
    (hvalue : Token.readsAs w.foreign tag.name written value = true) :
    Arrives (Flows w holder below) isTextChar (ms ++ value.map .char) rest final := by
  have hordinary : isModalName tag.name = false :=
    (show ∀ name ∈ textTags, isModalName name = false by decide) _ hname
  obtain ⟨limit, b, hlimit, hflows, rfl⟩ := h.exists_readAll_accept Flows.acceptsText hopening
  by_cases hforeign : b.isForeign (.startTag tag) = true
  · have hends : Foreign.endsForeign tag = false := by
      have hnames := (show ∀ name ∈ textTags, name ∉ Foreign.endingTags ∧ name ≠ "font" by decide)
        _ hname
      simp [Foreign.endsForeign, hnames.1, hnames.2]
    have hopened := hflows.accept_startTag_of_isForeign hforeign hends
      ((show ∀ name ∈ textTags, name ≠ standInTag by decide) _ hname) hordinary
    -- The text is markup without tags.
    obtain ⟨limit', b', hlimit', hflows', hread⟩ : ∃ (limit' : Nat) (b' : Builder),
        (closing ++ rest).length < limit' ∧ b'.Flows w holder below (ms ++ value.map .char) ∧
        (b.accept (.startTag tag)).readAll limit (written ++ (closing ++ rest)) =
          b'.readAll limit' (closing ++ rest) := by
      by_cases hwritten : written = []
      · subst hwritten
        rw [Token.readsAs_nil hvalue, List.map_nil, List.append_nil]
        exact ⟨limit, _, hlimit, hopened, rfl⟩
      · rw [hflows.steady.foreign_of_isForeign hforeign] at hvalue
        obtain ⟨limit', hlimit', hread⟩ := exists_readAll_eq hopened.steady.reading_eq hwritten
          (Token.readMarkup_of_readsAs hvalue hwritten hnull hclosing · rest) hlimit
        exact ⟨limit', _, hlimit', hopened.accept_characters value, hread⟩
    obtain ⟨limit'', hlimit'', hread'⟩ :=
      exists_readAll_tag hflows'.steady.reading_eq hclosing hlimit'
    rw [hread, hread']
    exact (hflows'.accept_endTag hordinary).arrives hlimit''
  · obtain ⟨b', drops, hflows', hcurrent, hdrops, hbody⟩ :=
      hflows.exists_bodyStart_eq_holding hname hplaintext
    have haccept : b.accept (.startTag tag) = b'.holding (textReading tag.name) drops := by
      refine (accept_startTag_eq hflows.steady.dropLineFeed_eq tag ?_).trans hbody
      rw [if_neg hforeign, treatsAsBody_startTag holder hordinary _ hflows.steady.mode_eq]
      rfl
    obtain ⟨limit', b'', hlimit', hflows'', hread⟩ :=
      hflows'.exists_readAll_holding hname hcurrent hvalue hnull hdrops hclosing hlimit
    rw [haccept, hread]
    exact hflows''.arrives hlimit'

/-- The opening tag of preformatted text drops nothing of a text that starts otherwise than with a
line feed. -/
theorem preformatted {opening : List Char} {c : Char} {rest : List Char}
    (h : Arrives (Flows w holder below) isTextChar ms (opening ++ c :: rest) final)
    (hopening : Token.Written (.startTag tag) opening) (hname : tag.name ∈ ["listing", "pre"])
    (hc : c ≠ '\n') : Arrives (Flows w holder below) isTextChar ms (c :: rest) final := by
  obtain ⟨limit, b, hlimit, hflows, rfl⟩ := h.exists_readAll_accept Flows.acceptsText hopening
  obtain ⟨b', hflows', haccept⟩ := hflows.exists_accept_preformatted hname
  have hready : Ready (Flows w holder below) ms (c :: rest) { b' with dropLineFeed := true } :=
    ⟨(Ready.of_holds hflows' hflows'.steady.dropLineFeed_eq []).holds,
      fun _ ↦ ⟨c, rest, rfl, hc⟩⟩
  rw [haccept]
  exact ⟨limit, _, ms, [], hready, nofun, List.append_nil ms, hlimit, rfl⟩

end Arrives

end Builder

end NotebookTree.Html
