import NotebookTree.Html.Modes
import NotebookTree.Proofs.Html.Reading

/-!
# Elements that hold text alone

The text of such an element goes up to the closing tag of the element. A text without the start of
one is read as it is, whatever comes after the closing tag.
-/

namespace NotebookTree.Html

/-- The elements of HTML that hold text alone. -/
def textTags : List String :=
  ["iframe", "noembed", "noframes", "noscript", "plaintext", "script", "style", "textarea",
    "title", "xmp"]

/-- How the text of an element is read that holds text alone. -/
def textReading (name : String) : Reading :=
  if name = "script" then .script
  else if name ∈ ["textarea", "title"] then .escapable name
  else .raw name

/-- A character in lower case is the character itself or a small letter. -/
theorem lowerAscii_cases (c : Char) :
    Text.lowerAscii c = c ∨ ∃ place : Fin 26, Text.lowerAscii c = Char.ofNat (97 + place) := by
  by_cases hupper : 'A' ≤ c ∧ c ≤ 'Z'
  · have hge : 65 ≤ c.toNat := hupper.1
    have hle : c.toNat ≤ 90 := hupper.2
    refine .inr ⟨⟨c.toNat - 65, by omega⟩, ?_⟩
    rw [Text.lowerAscii, if_pos hupper]
    exact congrArg Char.ofNat (show c.toNat + 32 = 97 + (c.toNat - 65) by omega)
  · exact .inl (if_neg hupper)

namespace Token

/-! ## Closing tags -/

theorem dropStartAnyCase?_append {start cs : List Char} (h : cs.map Text.lowerAscii = start)
    (rest : List Char) : Text.dropStartAnyCase? start (cs ++ rest) = some rest := by
  induction cs generalizing start with
  | nil =>
    subst h
    rfl
  | cons c more ih =>
    subst h
    rw [List.map_cons, List.cons_append, Text.dropStartAnyCase?, if_pos rfl, ih rfl]

/-- An end tag starts with the closing tag of its name. -/
theorem Written.startsClosing {name : String} {cs : List Char} (h : Written (.endTag name) cs)
    (hname : Entity.replacement ∉ name.toList) (more : List Char) :
    startsClosing name (cs ++ more) = true := by
  cases h with
  | @stop c rest tag halpha htag =>
    obtain ⟨heq, d, after, hafter, hd⟩ := name_of_tag? htag
    have hlower : ((c :: rest).takeWhile (!endsName ·)).map Text.lowerAscii =
        tag.name.toList := by
      rw [heq, String.toList_ofList] at hname ⊢
      refine List.map_congr_left fun c hc ↦ (if_neg fun hnull ↦ ?_).symm
      refine hname (List.mem_map.2 ⟨c, hc, ?_⟩)
      rw [hnull]
      rfl
    have hsplit : '<' :: '/' :: c :: rest ++ more =
        ('<' :: '/' :: (c :: rest).takeWhile (!endsName ·)) ++ (d :: (after ++ more)) := by
      have hcs := List.takeWhile_append_dropWhile (p := (!endsName ·)) (l := c :: rest)
      rw [hafter] at hcs
      generalize (c :: rest).takeWhile (!endsName ·) = name at hcs
      rw [← hcs]
      simp
    have hstart : ('<' :: '/' :: (c :: rest).takeWhile (!endsName ·)).map Text.lowerAscii =
        '<' :: '/' :: tag.name.toList := by
      rw [List.map_cons, List.map_cons, hlower]
      rfl
    rw [hsplit, Token.startsClosing, dropStartAnyCase?_append hstart]
    exact hd

/-- A beginning without less-than signs lies before the next one. -/
theorem exists_of_dropStartAnyCase?_append {start : List Char} (hstart : '<' ∉ start)
    {cs more rest : List Char}
    (h : Text.dropStartAnyCase? start (cs ++ '<' :: more) = some rest) :
    ∃ rest', Text.dropStartAnyCase? start cs = some rest' ∧ rest = rest' ++ '<' :: more := by
  induction start generalizing cs with
  | nil => exact ⟨cs, rfl, (Option.some.inj h).symm⟩
  | cons p start ih =>
    rw [List.mem_cons, not_or] at hstart
    cases cs with
    | nil =>
      rw [List.nil_append, Text.dropStartAnyCase?, if_neg fun heq ↦ hstart.1 heq.symm] at h
      cases h
    | cons c cs =>
      rw [List.cons_append, Text.dropStartAnyCase?] at h
      rw [Text.dropStartAnyCase?]
      by_cases hc : p = Text.lowerAscii c
      · rw [if_pos hc] at h ⊢
        exact ih hstart.2 h
      · rw [if_neg hc] at h
        cases h

/-- A closing tag that starts inside a text is one of the text, if a less-than sign comes next. -/
theorem startsClosing_of_append {closing : String} (hclosing : '<' ∉ closing.toList)
    {c : Char} {text more : List Char}
    (h : startsClosing closing (c :: text ++ '<' :: more) = true) :
    startsClosing closing (c :: text) = true := by
  have hrest : '<' ∉ '/' :: closing.toList := by
    rw [List.mem_cons, not_or]
    exact ⟨by decide, hclosing⟩
  rw [List.cons_append, startsClosing, Text.dropStartAnyCase?] at h
  rw [startsClosing, Text.dropStartAnyCase?]
  split at h
  · next c' after hafter =>
    split at hafter
    · next hfirst =>
      obtain ⟨rest', hrest', heq⟩ := exists_of_dropStartAnyCase?_append hrest hafter
      rw [if_pos hfirst, hrest']
      cases rest' with
      | nil =>
        rw [(List.cons.inj heq).1] at h
        exact absurd h (by decide)
      | cons d more => exact (List.cons.inj heq).1 ▸ h
    · cases hafter
  · cases h

/-- A text in which no closing tag starts goes up to the closing tag. -/
theorem beforeClosing_append {closing : String} (hclosing : '<' ∉ closing.toList)
    {text more : List Char} (htext : beforeClosing closing text = (text, []))
    (hmore : startsClosing closing ('<' :: more) = true) :
    beforeClosing closing (text ++ '<' :: more) = (text, '<' :: more) := by
  induction text with
  | nil => rw [List.nil_append, beforeClosing, if_pos hmore]
  | cons c rest ih =>
    have hnot : ¬startsClosing closing (c :: rest) = true := by
      intro hstarts
      rw [beforeClosing, if_pos hstarts] at htext
      cases htext
    rw [beforeClosing, if_neg hnot] at htext
    have hrest : beforeClosing closing rest = (rest, []) := by
      obtain ⟨hfirst, hsecond⟩ := Prod.mk.inj htext
      exact Prod.ext (List.cons.inj hfirst).2 hsecond
    have hnot' : ¬startsClosing closing (c :: (rest ++ '<' :: more)) = true := fun hstarts ↦
      hnot (startsClosing_of_append hclosing hstarts)
    rw [List.cons_append, beforeClosing, if_neg hnot', ih hrest]

theorem startsClosing_of_ne {c : Char} (h : c ≠ '<') (closing : String) (rest : List Char) :
    startsClosing closing (c :: rest) = false := by
  have hfirst : '<' ≠ Text.lowerAscii c := by
    rcases lowerAscii_cases c with heq | ⟨place, heq⟩ <;> rw [heq]
    · exact h.symm
    · exact (show ∀ place : Fin 26, '<' ≠ Char.ofNat (97 + place) by decide) place
  rw [startsClosing, Text.dropStartAnyCase?, if_neg hfirst]

/-- No closing tag starts in a text without less-than signs. -/
theorem beforeClosing_of_not_mem {closing : String} {text : List Char} (h : '<' ∉ text) :
    beforeClosing closing text = (text, []) := by
  induction text with
  | nil => rfl
  | cons c rest ih =>
    rw [List.mem_cons, not_or] at h
    rw [beforeClosing, if_neg (by simp [startsClosing_of_ne (Ne.symm h.1)]), ih h.2]

/-- The text of a script goes up to the closing tag, if it has no less-than signs. -/
theorem scriptText_append_of_not_mem {text more : List Char} (h : '<' ∉ text)
    (hmore : startsClosing "script" ('<' :: more) = true) :
    scriptText .normal (text ++ '<' :: more) = (text, '<' :: more) := by
  induction text with
  | nil =>
    have hslash : ∀ rest, more ≠ '!' :: rest := by
      rintro rest rfl
      exact absurd hmore (by simp [startsClosing, Text.dropStartAnyCase?, Text.lowerAscii])
    rw [List.nil_append, scriptText, if_pos (by simp [hmore, ScriptState.canEnd])]
    exact fun rest _ heq ↦ hslash _ heq
  | cons c rest ih =>
    rw [List.mem_cons, not_or] at h
    have hnot := startsClosing_of_ne (Ne.symm h.1) "script" (rest ++ '<' :: more)
    rw [List.cons_append, scriptText, if_neg (by simp [hnot]), ScriptState.next, ih h.2]
    exact fun _ heq _ ↦ h.1 heq.symm

/-! ## Reading in either way -/

theorem textOrClosing_of_ne_nil (tokensOf : List Char → List Token) {text : List Char}
    (hne : text ≠ []) (rest : List Char) :
    textOrClosing tokensOf text rest = (tokensOf (text.map withoutNull), rest) := by
  rw [textOrClosing, if_neg (by simpa using hne)]

theorem textOrClosing_closing (tokensOf : List Char → List Token) {name : String}
    {closing : List Char} (hclosing : Written (.endTag name) closing) (more : List Char) :
    textOrClosing tokensOf [] (closing ++ more) = ([.endTag name], more) := by
  cases hclosing with
  | @stop c rest tag halpha htag =>
    have htag' : tag? (('<' :: '/' :: c :: rest ++ more).drop 2) = some (tag, more) :=
      tag?_append htag more
    rw [textOrClosing, if_pos List.isEmpty_nil, htag']

section Reading

variable {name : String} {reading : Reading} {closing : List Char}

theorem Written.exists_closing (hclosing : Written (.endTag name) closing) (more : List Char) :
    ∃ rest, closing ++ more = '<' :: '/' :: rest := by
  cases hclosing with
  | @stop c rest tag _ _ => exact ⟨c :: rest ++ more, rfl⟩

/-- The text of an element up to its end tag is read as text alone, be it markup or not. -/
theorem exists_read_text (hname : name ∈ textTags)
    (hreading : reading = .markup ∨ reading = textReading name)
    (hclosing : Written (.endTag name) closing) {text : List Char} (hne : text ≠ [])
    (htext : ∀ c ∈ text, c ≠ '<' ∧ c ≠ '\x00') (foreign : Bool) :
    ∃ tokens, (∀ token ∈ tokens, token.isTag = false) ∧
      ∀ more, read reading foreign (text ++ (closing ++ more)) = (tokens, closing ++ more) := by
  have hless : '<' ∉ text := fun hmem ↦ (htext _ hmem).1 rfl
  have hplain : Entity.replacement ∉ name.toList ∧ '<' ∉ name.toList :=
    (show ∀ name ∈ textTags, Entity.replacement ∉ name.toList ∧ '<' ∉ name.toList by decide)
      name hname
  have hstarts (more : List Char) := hclosing.startsClosing hplain.1 more
  have hraw (more : List Char) :
      beforeClosing name (text ++ (closing ++ more)) = (text, closing ++ more) := by
    obtain ⟨rest, hrest⟩ := hclosing.exists_closing more
    rw [hrest]
    exact beforeClosing_append hplain.2 (beforeClosing_of_not_mem hless) (hrest ▸ hstarts more)
  have hcharacters : ∀ token ∈ [characters (text.map withoutNull)], token.isTag = false := by
    simp [isTag]
  rcases hreading with rfl | rfl
  · refine ⟨textTokens text, not_isTag_of_mem_textTokens, fun more ↦ ?_⟩
    obtain ⟨rest, hrest⟩ := hclosing.exists_closing more
    rw [hrest]
    exact readMarkup_run foreign hne htext rfl
  unfold textReading
  split
  · next hscript =>
    refine ⟨_, hcharacters, fun more ↦ ?_⟩
    obtain ⟨rest, hrest⟩ := hclosing.exists_closing more
    have hread : scriptText .normal (text ++ (closing ++ more)) = (text, closing ++ more) := by
      rw [hrest]
      exact scriptText_append_of_not_mem hless (hscript ▸ hrest ▸ hstarts more)
    rw [read, hread]
    exact textOrClosing_of_ne_nil _ hne _
  split
  · refine ⟨textTokens (text.map withoutNull), not_isTag_of_mem_textTokens, fun more ↦ ?_⟩
    rw [read, hraw]
    exact textOrClosing_of_ne_nil _ hne _
  · refine ⟨_, hcharacters, fun more ↦ ?_⟩
    rw [read, hraw]
    exact textOrClosing_of_ne_nil _ hne _

/-- The end tag of an element is read as a tag, be it in markup or not. -/
theorem read_closing (hname : name ∈ textTags)
    (hreading : reading = .markup ∨ reading = textReading name)
    (hclosing : Written (.endTag name) closing) (foreign : Bool) (more : List Char) :
    read reading foreign (closing ++ more) = ([.endTag name], more) := by
  have hplain : Entity.replacement ∉ name.toList :=
    (show ∀ name ∈ textTags, Entity.replacement ∉ name.toList by decide) name hname
  have hstarts := hclosing.startsClosing hplain more
  obtain ⟨rest, hrest⟩ := hclosing.exists_closing more
  have hraw : beforeClosing name (closing ++ more) = ([], closing ++ more) := by
    rw [hrest] at hstarts ⊢
    rw [beforeClosing, if_pos hstarts]
  rcases hreading with rfl | rfl
  · exact hclosing.readMarkup_append foreign more
  unfold textReading
  split
  · next hscript =>
    have hread : scriptText .normal (closing ++ more) = ([], closing ++ more) := by
      rw [hrest] at hstarts ⊢
      exact scriptText_append_of_not_mem List.not_mem_nil (hscript ▸ hstarts)
    rw [read, hread]
    exact textOrClosing_closing _ hclosing more
  split
  · rw [read, hraw]
    exact textOrClosing_closing _ hclosing more
  · rw [read, hraw]
    exact textOrClosing_closing _ hclosing more

end Reading

end Token

end NotebookTree.Html
