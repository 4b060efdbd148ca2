import NotebookTree.Html.Token
import NotebookTree.Node.Markup

/-!
# Reading markup back

A text that is escaped and then read as markup is one token with the same characters, whatever tag
comes after it. A tag is read in the same way whatever comes after it, so the tokens of a fragment
are those of its parts.
-/

namespace NotebookTree.Html

namespace Token

/-! ## Escaped texts -/

theorem escapeText_cons (c : Char) (rest : List Char) :
    Node.escapeText (c :: rest) = Node.escapedTextChar c ++ Node.escapeText rest :=
  List.flatMap_cons

theorem reference?_amp (rest : List Char) :
    reference? false ('a' :: 'm' :: 'p' :: ';' :: rest) = some (['&'], rest) := rfl

theorem reference?_lt (rest : List Char) :
    reference? false ('l' :: 't' :: ';' :: rest) = some (['<'], rest) := rfl

theorem reference?_gt (rest : List Char) :
    reference? false ('g' :: 't' :: ';' :: rest) = some (['>'], rest) := rfl

/-- An escaped character is read back in one step. -/
theorem decode_escapedTextChar (c : Char) (fuel : Nat) (rest : List Char) :
    decode false (fuel + 1) (Node.escapedTextChar c ++ rest) = c :: decode false fuel rest := by
  unfold Node.escapedTextChar
  split
  · next hc =>
    simp only [List.cons_append, List.nil_append, decode, if_true, reference?_amp, hc]
  split
  · next hc =>
    simp only [List.cons_append, List.nil_append, decode, if_true, reference?_lt, hc]
  split
  · next hc =>
    simp only [List.cons_append, List.nil_append, decode, if_true, reference?_gt, hc]
  · next hamp _ _ => rw [List.singleton_append, decode, if_neg hamp]

theorem escapedTextChar_ne_nil (c : Char) : Node.escapedTextChar c ≠ [] := by
  unfold Node.escapedTextChar
  repeat' split
  all_goals simp

/-- An escaped text is read back. -/
theorem decode_escapeText (text : List Char) {fuel : Nat}
    (hfuel : (Node.escapeText text).length < fuel) :
    decode false fuel (Node.escapeText text) = text := by
  induction text generalizing fuel with
  | nil =>
    cases fuel with
    | zero => exact absurd hfuel (Nat.not_lt_zero _)
    | succ fuel => rfl
  | cons c rest ih =>
    rw [escapeText_cons, List.length_append] at hfuel
    have hpos := List.length_pos_iff.2 (escapedTextChar_ne_nil c)
    cases fuel with
    | zero => exact absurd hfuel (Nat.not_lt_zero _)
    | succ fuel => rw [escapeText_cons, decode_escapedTextChar, ih (by omega)]

/-- An escaped text holds the characters of the text but for less-than signs, and those of the
character references. -/
theorem of_mem_escapeText {text : List Char} {d : Char} (h : d ∈ Node.escapeText text) :
    (d ∈ text ∧ d ≠ '<') ∨ d ∈ ['&', 'a', 'm', 'p', 'l', 'g', 't', ';'] := by
  have hnames {name : List Char} (hname : name ⊆ ['&', 'a', 'm', 'p', 'l', 'g', 't', ';'])
      (hd : d ∈ name) : d ∈ ['&', 'a', 'm', 'p', 'l', 'g', 't', ';'] := hname hd
  obtain ⟨c, hc, hd⟩ := List.mem_flatMap.1 h
  unfold Node.escapedTextChar at hd
  split at hd
  · exact .inr (hnames (by decide) hd)
  split at hd
  · exact .inr (hnames (by decide) hd)
  split at hd
  · exact .inr (hnames (by decide) hd)
  · next hless _ =>
    rw [List.mem_singleton.1 hd]
    exact .inl ⟨hc, hless⟩

theorem less_not_mem_escapeText (text : List Char) : '<' ∉ Node.escapeText text := by
  intro hmem
  rcases of_mem_escapeText hmem with ⟨-, hne⟩ | hname
  · exact hne rfl
  · revert hname
    decide

/-- No escaped text starts with a number of a character. -/
theorem startsFaulty_escapeText (text : List Char) :
    startsFaulty (Node.escapeText text) = false := by
  cases text with
  | nil => rfl
  | cons c rest =>
    rw [escapeText_cons]
    unfold Node.escapedTextChar
    split
    · rfl
    split
    · rfl
    split
    · rfl
    · next hamp _ _ =>
      unfold startsFaulty
      split
      · next heq => exact absurd (List.cons.inj heq).1 hamp
      · rfl

theorem textTokens_escapeText (text : List Char) :
    textTokens (Node.escapeText text) = [.characters text] := by
  rw [textTokens, startsFaulty_escapeText, decoded, decode_escapeText text (Nat.lt_succ_self _)]
  rfl

/-- What is neither a tag nor a null character is read up to the next of these. -/
theorem readMarkup_eq (foreign : Bool) {c : Char} (rest : List Char) (hless : c ≠ '<')
    (hnull : c ≠ '\x00') :
    readMarkup foreign (c :: rest) =
      (textTokens ((c :: rest).takeWhile fun c ↦ c != '<' && c != '\x00'),
        (c :: rest).dropWhile fun c ↦ c != '<' && c != '\x00') := by
  unfold readMarkup
  split
  · next heq => cases heq
  · next heq => exact absurd (List.cons.inj heq).1 hnull
  · next heq => exact absurd (List.cons.inj heq).1 hless
  · next heq => exact absurd (List.cons.inj heq).1 hless
  · next heq => exact absurd (List.cons.inj heq).1 hless
  · next heq => exact absurd (List.cons.inj heq).1 hless
  · next heq => exact absurd (List.cons.inj heq).1 hless
  · next heq =>
    obtain ⟨rfl, rfl⟩ := List.cons.inj heq
    exact if_neg hless

/-- Does a text start with what ends a run of characters? -/
def stops (text : List Char) : Bool :=
  text.head?.all fun c ↦ c == '<' || c == '\x00'

/-- A run of characters is read up to what ends it. -/
theorem readMarkup_run (foreign : Bool) {text rest : List Char} (hne : text ≠ [])
    (htext : ∀ c ∈ text, c ≠ '<' ∧ c ≠ '\x00') (hrest : stops rest = true) :
    readMarkup foreign (text ++ rest) = (textTokens text, rest) := by
  obtain ⟨c, more, rfl⟩ := List.exists_cons_of_ne_nil hne
  have hgoesOn : ∀ d ∈ c :: more, (d != '<' && d != '\x00') = true := by
    simpa using htext
  obtain ⟨hless, hnull⟩ := htext c List.mem_cons_self
  have hmarkup := readMarkup_eq foreign (more ++ rest) hless hnull
  rw [← List.cons_append, List.takeWhile_append_of_pos hgoesOn,
    List.dropWhile_append_of_pos hgoesOn] at hmarkup
  cases rest with
  | nil => simpa using hmarkup
  | cons d after =>
    have hends : (d != '<' && d != '\x00') = false := by
      simp only [stops, List.head?_cons, Option.all_some, Bool.or_eq_true, beq_iff_eq] at hrest
      rcases hrest with rfl | rfl <;> decide
    rwa [List.takeWhile_cons_of_neg (by simp [hends]), List.dropWhile_cons_of_neg
      (by simp [hends]), List.append_nil] at hmarkup

theorem escapeText_ne_nil {text : List Char} (h : text ≠ []) : Node.escapeText text ≠ [] := by
  cases text with
  | nil => exact absurd rfl h
  | cons c rest =>
    rw [escapeText_cons]
    exact List.append_ne_nil_of_left_ne_nil (escapedTextChar_ne_nil c) _

/-- An escaped text is one token, up to the next tag. -/
theorem readMarkup_escapeText (foreign : Bool) {text rest : List Char} (hne : text ≠ [])
    (hnull : '\x00' ∉ text) (hrest : rest = [] ∨ ∃ more, rest = '<' :: more) :
    readMarkup foreign (Node.escapeText text ++ rest) = ([.characters text], rest) := by
  have hgoesOn : ∀ c ∈ Node.escapeText text, (c != '<' && c != '\x00') = true := by
    intro c hc
    rcases of_mem_escapeText hc with ⟨hmem, hless⟩ | hmem
    · simpa [hless] using fun heq : c = '\x00' ↦ hnull (heq ▸ hmem)
    · have hall : ['&', 'a', 'm', 'p', 'l', 'g', 't', ';'].all
          (fun c ↦ c != '<' && c != '\x00') = true := by
        decide
      exact List.all_eq_true.1 hall c hmem
  have hstops : stops rest = true := by
    rcases hrest with rfl | ⟨more, rfl⟩ <;> rfl
  rw [readMarkup_run foreign (escapeText_ne_nil hne) (fun c hc ↦ by simpa using hgoesOn c hc) hstops,
    textTokens_escapeText]

/-! ## Tags -/

section Prefix

variable {goesOn : Char → Bool} {cs : List Char}

/-- A run that ends inside a text is not changed by what comes after the text. -/
theorem dropWhile_append_of_ne_nil (h : cs.dropWhile goesOn ≠ []) (more : List Char) :
    (cs ++ more).dropWhile goesOn = cs.dropWhile goesOn ++ more := by
  rw [List.dropWhile_append, if_neg (by simpa using h)]

theorem takeWhile_append_of_ne_nil (h : cs.dropWhile goesOn ≠ []) (more : List Char) :
    (cs ++ more).takeWhile goesOn = cs.takeWhile goesOn := by
  rw [List.takeWhile_append, if_neg]
  intro hlength
  refine h (List.eq_nil_of_length_eq_zero ?_)
  have hsum := congrArg List.length (List.takeWhile_append_dropWhile (p := goesOn) (l := cs))
  rw [List.length_append] at hsum
  omega

end Prefix

/-- A value is read in the same way whatever comes after the text that follows it. -/
theorem value?_append {cs value rest : List Char} (h : value? cs = some (value, rest))
    (hrest : rest ≠ []) (more : List Char) : value? (cs ++ more) = some (value, rest ++ more) := by
  unfold value? at h ⊢
  cases hblank : cs.dropWhile isTagBlank with
  | nil =>
    rw [hblank] at h
    cases h
  | cons c tail =>
    rw [dropWhile_append_of_ne_nil (by rw [hblank]; exact List.cons_ne_nil _ _), hblank,
      List.cons_append]
    rw [hblank] at h
    dsimp only at h ⊢
    by_cases hquote : c = '"' ∨ c = '\x27'
    · rw [if_pos hquote] at h ⊢
      cases hclosing : tail.dropWhile (· != c) with
      | nil =>
        rw [hclosing] at h
        cases h
      | cons closing after =>
        have hne : tail.dropWhile (· != c) ≠ [] := by
          rw [hclosing]
          exact List.cons_ne_nil _ _
        rw [hclosing] at h
        rw [dropWhile_append_of_ne_nil hne, takeWhile_append_of_ne_nil hne, hclosing]
        cases h
        rfl
    · rw [if_neg hquote] at h ⊢
      by_cases hend : c = '>'
      · rw [if_pos hend] at h ⊢
        cases h
        rfl
      · rw [if_neg hend] at h ⊢
        obtain ⟨rfl, rfl⟩ := Prod.mk.inj (Option.some.inj h)
        rw [← List.cons_append, dropWhile_append_of_ne_nil hrest, takeWhile_append_of_ne_nil hrest]

section Attributes

variable {fuel : Nat} {before : List (String × String)} {cs tail : List Char} {first : Char}

/-- The characters of an attribute name. -/
def inName (c : Char) : Bool := !(endsName c || c == '=')

theorem attributes?_nil : attributes? fuel before [] = none := by
  cases fuel <;> rfl

theorem attributes?_blank (h : cs.dropWhile isTagBlank = []) :
    attributes? fuel before cs = none := by
  cases fuel with
  | zero => rfl
  | succ fuel => rw [attributes?, h]

theorem attributes?_greater (h : cs.dropWhile isTagBlank = '>' :: tail) :
    attributes? (fuel + 1) before cs = some (before, false, tail) := by
  rw [attributes?, h]
  rfl

theorem attributes?_slash_greater (h : cs.dropWhile isTagBlank = '/' :: '>' :: tail) :
    attributes? (fuel + 1) before cs = some (before, true, tail) := by
  rw [attributes?, h]
  rfl

theorem attributes?_slash (h : cs.dropWhile isTagBlank = '/' :: tail)
    (htail : tail.head? ≠ some '>') :
    attributes? (fuel + 1) before cs = attributes? fuel before tail := by
  rw [attributes?, h]
  split
  · next heq => cases heq
  · next heq => cases heq
  · next heq =>
    cases heq
    exact absurd rfl htail
  · next heq =>
    cases heq
    rfl
  · next hslash heq =>
    cases heq
    exact absurd rfl hslash

/-- An attribute with a value. -/
theorem attributes?_value (h : cs.dropWhile isTagBlank = first :: tail) (hgreater : first ≠ '>')
    (hslash : first ≠ '/') {after : List Char}
    (hequals : (tail.dropWhile inName).dropWhile isTagBlank = '=' :: after) :
    attributes? (fuel + 1) before cs = (value? after).bind fun found ↦
      attributes? fuel (addAttribute before (first :: tail.takeWhile inName) found.1) found.2 := by
  have hequals' : (tail.dropWhile fun c ↦ !(endsName c || c == '=')).dropWhile isTagBlank =
      '=' :: after := hequals
  rw [attributes?, h]
  split
  · next heq => cases heq
  · next heq => exact absurd (List.cons.inj heq).1 hgreater
  · next heq => exact absurd (List.cons.inj heq).1 hslash
  · next heq => exact absurd (List.cons.inj heq).1 hslash
  · next heq =>
    cases heq
    dsimp only
    rw [hequals']
    rfl

/-- An attribute without a value. -/
theorem attributes?_name (h : cs.dropWhile isTagBlank = first :: tail) (hgreater : first ≠ '>')
    (hslash : first ≠ '/')
    (hequals : ((tail.dropWhile inName).dropWhile isTagBlank).head? ≠ some '=') :
    attributes? (fuel + 1) before cs =
      attributes? fuel (addAttribute before (first :: tail.takeWhile inName) [])
        ((tail.dropWhile inName).dropWhile isTagBlank) := by
  rw [attributes?, h]
  split
  · next heq => cases heq
  · next heq => exact absurd (List.cons.inj heq).1 hgreater
  · next heq => exact absurd (List.cons.inj heq).1 hslash
  · next heq => exact absurd (List.cons.inj heq).1 hslash
  · next heq =>
    cases heq
    dsimp only
    split
    · next after hafter =>
      have hafter' : (tail.dropWhile inName).dropWhile isTagBlank = '=' :: after := hafter
      rw [hafter'] at hequals
      exact absurd rfl hequals
    · rfl

end Attributes

/-- The attributes of a tag are read in the same way whatever comes after it. -/
theorem attributes?_append {fuel fuel' : Nat} {before attributes : List (String × String)}
    {cs rest : List Char} {selfClosing : Bool}
    (h : attributes? fuel before cs = some (attributes, selfClosing, rest)) (hfuel : fuel ≤ fuel')
    (more : List Char) :
    attributes? fuel' before (cs ++ more) = some (attributes, selfClosing, rest ++ more) := by
  induction fuel generalizing fuel' before cs with
  | zero => cases h
  | succ fuel ih =>
    obtain ⟨fuel', rfl⟩ := Nat.exists_eq_add_of_le' hfuel
    have hle : fuel ≤ fuel' + fuel := Nat.le_add_left _ _
    show attributes? (fuel' + fuel + 1) _ _ = _
    cases hblank : cs.dropWhile isTagBlank with
    | nil =>
      rw [attributes?_blank hblank] at h
      cases h
    | cons first tail =>
      have hblank' : (cs ++ more).dropWhile isTagBlank = first :: (tail ++ more) := by
        rw [dropWhile_append_of_ne_nil (by rw [hblank]; exact List.cons_ne_nil _ _), hblank]
        rfl
      by_cases hgreater : first = '>'
      · subst hgreater
        rw [attributes?_greater hblank] at h
        rw [attributes?_greater hblank']
        cases h
        rfl
      by_cases hslash : first = '/'
      · subst hslash
        cases tail with
        | nil =>
          rw [attributes?_slash hblank (by simp), attributes?_nil] at h
          cases h
        | cons c tail =>
          by_cases hc : c = '>'
          · subst hc
            rw [attributes?_slash_greater hblank] at h
            rw [attributes?_slash_greater hblank']
            cases h
            rfl
          · rw [attributes?_slash hblank (by simpa using hc)] at h
            rw [attributes?_slash hblank' (by simpa using hc)]
            exact ih h hle
      · cases hafter : (tail.dropWhile inName).dropWhile isTagBlank with
        | nil =>
          rw [attributes?_name hblank hgreater hslash (by simp [hafter]), hafter,
            attributes?_nil] at h
          cases h
        | cons c after =>
          have hname : tail.dropWhile inName ≠ [] := by
            intro hnil
            rw [hnil] at hafter
            cases hafter
          have hafter' : ((tail ++ more).dropWhile inName).dropWhile isTagBlank =
              c :: (after ++ more) := by
            rw [dropWhile_append_of_ne_nil hname,
              dropWhile_append_of_ne_nil (by rw [hafter]; exact List.cons_ne_nil _ _), hafter]
            rfl
          have htake := takeWhile_append_of_ne_nil hname more
          by_cases hequals : c = '='
          · subst hequals
            rw [attributes?_value hblank hgreater hslash hafter] at h
            rw [attributes?_value hblank' hgreater hslash hafter', htake]
            cases hvalue : value? after with
            | none =>
              rw [hvalue] at h
              cases h
            | some found =>
              rw [hvalue, Option.bind_some] at h
              have hrest : found.2 ≠ [] := by
                intro hnil
                rw [hnil, attributes?_nil] at h
                cases h
              rw [value?_append hvalue hrest, Option.bind_some]
              exact ih h hle
          · rw [attributes?_name hblank hgreater hslash (by simpa [hafter] using hequals),
              hafter] at h
            rw [attributes?_name hblank' hgreater hslash (by simpa [hafter'] using hequals),
              hafter', htake]
            exact ih h hle

/-- A tag is read in the same way whatever comes after it. -/
theorem tag?_append {cs rest : List Char} {tag : Tag} (h : tag? cs = some (tag, rest))
    (more : List Char) : tag? (cs ++ more) = some (tag, rest ++ more) := by
  cases hattributes : attributes? (cs.length + 1) [] (cs.dropWhile (!endsName ·)) with
  | none =>
    rw [tag?, hattributes] at h
    cases h
  | some found =>
    have hne : cs.dropWhile (!endsName ·) ≠ [] := by
      intro hnil
      rw [hnil, attributes?_nil] at hattributes
      cases hattributes
    have hle : cs.length + 1 ≤ (cs ++ more).length + 1 := by
      rw [List.length_append]
      omega
    have hmore := attributes?_append hattributes hle more
    rw [tag?, hattributes] at h
    rw [tag?, dropWhile_append_of_ne_nil hne, takeWhile_append_of_ne_nil hne, hmore]
    cases h
    rfl

theorem value?_suffix {cs value rest : List Char} (h : value? cs = some (value, rest)) :
    rest <:+ cs := by
  have hblank := List.dropWhile_suffix (l := cs) isTagBlank
  unfold value? at h
  split at h
  · cases h
  · next c tail heq =>
    have htail : tail <:+ cs := (List.suffix_cons c tail).trans (heq ▸ hblank)
    split at h
    · split at h
      · cases h
      · next closing after heq' =>
        cases h
        have hafter := List.dropWhile_suffix (l := tail) (· != c)
        rw [heq'] at hafter
        exact (List.suffix_cons _ _).trans (hafter.trans htail)
    · split at h
      · cases h
        exact heq ▸ hblank
      · cases h
        exact (List.dropWhile_suffix _).trans (heq ▸ hblank)

/-- A tag ends with a greater-than sign. -/
theorem attributes?_suffix {fuel : Nat} {before attributes : List (String × String)}
    {cs rest : List Char} {selfClosing : Bool}
    (h : attributes? fuel before cs = some (attributes, selfClosing, rest)) :
    '>' :: rest <:+ cs := by
  induction fuel generalizing before cs with
  | zero => cases h
  | succ fuel ih =>
    have hblank := List.dropWhile_suffix (l := cs) isTagBlank
    unfold attributes? at h
    split at h
    · cases h
    · next tail heq =>
      cases h
      exact heq ▸ hblank
    · next tail heq =>
      cases h
      exact (List.suffix_cons _ _).trans (heq ▸ hblank)
    · next tail _ heq => exact (ih h).trans ((List.suffix_cons _ _).trans (heq ▸ hblank))
    · next first tail _ _ _ heq =>
      have htail : tail <:+ cs := (List.suffix_cons _ _).trans (heq ▸ hblank)
      have hname : (tail.dropWhile inName).dropWhile isTagBlank <:+ cs :=
        (List.dropWhile_suffix _).trans ((List.dropWhile_suffix _).trans htail)
      dsimp only at h
      split at h
      · next after hafter =>
        obtain ⟨found, hvalue, hrest⟩ := Option.bind_eq_some_iff.1 h
        have hequals : '=' :: after <:+ cs := hafter ▸ hname
        exact (ih hrest).trans ((value?_suffix hvalue).trans
          ((List.suffix_cons _ _).trans hequals))
      · exact (ih h).trans hname

theorem tag?_suffix {cs rest : List Char} {tag : Tag} (h : tag? cs = some (tag, rest)) :
    '>' :: rest <:+ cs := by
  cases hattributes : attributes? (cs.length + 1) [] (cs.dropWhile (!endsName ·)) with
  | none =>
    rw [tag?, hattributes] at h
    cases h
  | some found =>
    rw [tag?, hattributes] at h
    cases h
    exact (attributes?_suffix hattributes).trans (List.dropWhile_suffix _)

/-- The name of a tag goes up to a character that ends it. -/
theorem name_of_tag? {cs rest : List Char} {tag : Tag} (h : tag? cs = some (tag, rest)) :
    tag.name = String.ofList ((cs.takeWhile (!endsName ·)).map
        fun c ↦ withoutNull (Text.lowerAscii c)) ∧
      ∃ c more, cs.dropWhile (!endsName ·) = c :: more ∧ endsName c = true := by
  cases hattributes : attributes? (cs.length + 1) [] (cs.dropWhile (!endsName ·)) with
  | none =>
    rw [tag?, hattributes] at h
    cases h
  | some found =>
    rw [tag?, hattributes] at h
    have htag : tag = _ := (Prod.mk.inj (Option.some.inj h)).1.symm
    refine ⟨htag ▸ rfl, ?_⟩
    cases hdrop : cs.dropWhile (!endsName ·) with
    | nil =>
      rw [hdrop, attributes?_nil] at hattributes
      cases hattributes
    | cons c more =>
      have hne : cs.dropWhile (!endsName ·) ≠ [] := by
        rw [hdrop]
        exact List.cons_ne_nil _ _
      have hnot := List.head_dropWhile_not (!endsName ·) hne
      simp only [hdrop, List.head_cons, Bool.not_eq_false'] at hnot
      exact ⟨c, more, rfl, hnot⟩

/-! ## Markup that is one tag -/

/-- Is it an opening tag or an end tag? -/
def isTag : Token → Bool
  | startTag _ => true
  | endTag _ => true
  | _ => false

/-- Markup that is one tag, as it is written. -/
inductive Written : Token → List Char → Prop where
  | start {c : Char} {rest : List Char} {tag : Tag} : c.isAlpha = true →
      tag? (c :: rest) = some (tag, []) → Written (.startTag tag) ('<' :: c :: rest)
  | stop {c : Char} {rest : List Char} {tag : Tag} : c.isAlpha = true →
      tag? (c :: rest) = some (tag, []) → Written (.endTag tag.name) ('<' :: '/' :: c :: rest)

theorem not_isTag_of_mem_plainTokens {cs : List Char} :
    ∀ token ∈ plainTokens cs, token.isTag = false := by
  intro token hmem
  obtain ⟨run, -, rfl⟩ := List.mem_map.1 hmem
  split <;> rfl

theorem not_isTag_of_mem_declaration {foreign : Bool} {cs : List Char} :
    ∀ token ∈ (declaration foreign cs).1, token.isTag = false := by
  unfold declaration
  split
  · simp [isTag]
  · simp [isTag]
  · simp [isTag]
  · split
    · simp [isTag]
    · split
      · split
        · exact not_isTag_of_mem_plainTokens
        · simp [isTag]
      · simp [isTag]

theorem not_isTag_of_mem_textTokens {cs : List Char} :
    ∀ token ∈ textTokens cs, token.isTag = false := by
  unfold textTokens
  split <;> simp [isTag]

theorem Written.of_readMarkup_eq {cs : List Char} {token : Token} (htag : token.isTag = true)
    (h : readMarkup false cs = ([token], [])) : Written token cs := by
  have hnot {tokens : List Token} {rest : List Char} (heq : (tokens, rest) = ([token], []))
      (hall : ∀ token ∈ tokens, token.isTag = false) : False := by
    obtain ⟨rfl, -⟩ := Prod.mk.inj heq
    exact Bool.false_ne_true ((hall token List.mem_cons_self).symm.trans htag)
  unfold readMarkup at h
  split at h
  · cases h
  · exact (hnot h (by simp [isTag])).elim
  · next rest =>
    have hall : ∀ token ∈ (declaration false rest).1, token.isTag = false :=
      not_isTag_of_mem_declaration
    rw [h] at hall
    exact (hnot rfl hall).elim
  · exact (hnot h (by simp [isTag])).elim
  · exact (hnot h (by simp [isTag])).elim
  · next c rest =>
    split at h
    · next halpha =>
      split at h
      · next tag rest' htag' =>
        cases h
        exact .stop halpha htag'
      · cases h
    · split at h
      · exact (hnot h (by simp [isTag])).elim
      · exact (hnot h (by simp [isTag])).elim
  · next c rest _ _ _ _ =>
    split at h
    · next halpha =>
      split at h
      · next tag rest' htag' =>
        cases h
        exact .start halpha htag'
      · cases h
    · exact (hnot h (by simp [isTag])).elim
  · split at h
    · exact (hnot h (by simp [isTag])).elim
    · exact (hnot h not_isTag_of_mem_textTokens).elim

/-- What is read of markup is tokens other than tags, an opening tag or an end tag. -/
theorem readMarkup_cases (foreign : Bool) (cs : List Char) :
    (∀ token ∈ (readMarkup foreign cs).1, token.isTag = false) ∨
      ∃ named tag rest, tag? named = some (tag, rest) ∧
        ((readMarkup foreign cs).1 = [.startTag tag] ∨
          (readMarkup foreign cs).1 = [.endTag tag.name]) := by
  unfold readMarkup
  split
  · exact .inl (by simp)
  · exact .inl (by simp [isTag])
  · exact .inl not_isTag_of_mem_declaration
  · exact .inl (by simp [isTag])
  · exact .inl (by simp [isTag])
  · split
    · split
      · next htag => exact .inr ⟨_, _, _, htag, .inr rfl⟩
      · exact .inl (by simp)
    · split
      · exact .inl (by simp [isTag])
      · exact .inl (by simp [isTag])
  · split
    · split
      · next htag => exact .inr ⟨_, _, _, htag, .inl rfl⟩
      · exact .inl (by simp)
    · exact .inl (by simp [isTag])
  · split
    · exact .inl (by simp [isTag])
    · exact .inl not_isTag_of_mem_textTokens

theorem readMarkup_open (foreign : Bool) {c : Char} {rest more : List Char} {tag : Tag}
    (halpha : c.isAlpha = true) (htag : tag? (c :: rest) = some (tag, more)) :
    readMarkup foreign ('<' :: c :: rest) = ([.startTag tag], more) := by
  have hne {d : Char} (hd : d.isAlpha = false) : c ≠ d := fun heq ↦
    Bool.false_ne_true (hd.symm.trans (heq ▸ halpha))
  unfold readMarkup
  split
  · next heq => cases heq
  · next heq => cases heq
  · next heq => exact absurd (List.cons.inj (List.cons.inj heq).2).1 (hne (by decide))
  · next heq => exact absurd (List.cons.inj (List.cons.inj heq).2).1 (hne (by decide))
  · next heq => exact absurd (List.cons.inj (List.cons.inj heq).2).1 (hne (by decide))
  · next heq => exact absurd (List.cons.inj (List.cons.inj heq).2).1 (hne (by decide))
  · next heq =>
    cases heq
    rw [if_pos halpha, htag]
  · next hlast heq =>
    cases heq
    exact absurd rfl (hlast c rest rfl)

theorem readMarkup_close (foreign : Bool) {c : Char} {rest more : List Char} {tag : Tag}
    (halpha : c.isAlpha = true) (htag : tag? (c :: rest) = some (tag, more)) :
    readMarkup foreign ('<' :: '/' :: c :: rest) = ([.endTag tag.name], more) := by
  show (if c.isAlpha then _ else _) = _
  rw [if_pos halpha, htag]

/-- A tag is one token, whatever comes after it. -/
theorem Written.readMarkup_append {cs : List Char} {token : Token} (h : Written token cs)
    (foreign : Bool) (more : List Char) : readMarkup foreign (cs ++ more) = ([token], more) := by
  cases h with
  | start halpha htag => exact readMarkup_open foreign halpha (tag?_append htag more)
  | stop halpha htag => exact readMarkup_close foreign halpha (tag?_append htag more)

theorem Written.exists_eq_cons {cs : List Char} {token : Token} (h : Written token cs) :
    ∃ rest, cs = '<' :: rest := by
  cases h <;> exact ⟨_, rfl⟩

theorem Written.suffix {cs : List Char} {token : Token} (h : Written token cs) : ['>'] <:+ cs := by
  cases h with
  | start _ htag => exact (tag?_suffix htag).trans (List.suffix_cons _ _)
  | stop _ htag =>
    exact (tag?_suffix htag).trans ((List.suffix_cons _ _).trans (List.suffix_cons _ _))

end Token

/-! ## Line ends -/

theorem normalizeLineEnds_return {rest : List Char} (h : rest.head? ≠ some '\n') :
    normalizeLineEnds ('\r' :: rest) = '\n' :: normalizeLineEnds rest := by
  rw [normalizeLineEnds]
  rintro rest rfl
  exact h rfl

theorem normalizeLineEnds_cons {c : Char} (hc : c ≠ '\r') (rest : List Char) :
    normalizeLineEnds (c :: rest) = c :: normalizeLineEnds rest := by
  rw [normalizeLineEnds]
  · exact fun _ heq _ ↦ hc heq
  · exact hc

/-- Line ends are changed part by part, unless a part may end inside a line end. -/
theorem normalizeLineEnds_append {cs : List Char} (h : cs.getLast? ≠ some '\r') (more : List Char) :
    normalizeLineEnds (cs ++ more) = normalizeLineEnds cs ++ normalizeLineEnds more := by
  fun_induction normalizeLineEnds cs with
  | case1 => rfl
  | case2 rest ih =>
    have hrest : rest.getLast? ≠ some '\r' := by
      cases rest with
      | nil => simp
      | cons c rest => simpa using h
    show '\n' :: normalizeLineEnds (rest ++ more) = _
    rw [ih hrest]
    rfl
  | case3 rest hreturn ih =>
    cases rest with
    | nil => exact absurd rfl h
    | cons c rest =>
      have hne : c ≠ '\n' := fun heq ↦ hreturn rest (heq ▸ rfl)
      have hrest : (c :: rest).getLast? ≠ some '\r' := by simpa using h
      rw [List.cons_append, normalizeLineEnds_return (by simpa using hne), ih hrest]
      rfl
  | case4 c rest _ hne ih =>
    have hrest : rest.getLast? ≠ some '\r' := by
      cases rest with
      | nil => simp
      | cons d rest => simpa using h
    rw [List.cons_append, normalizeLineEnds_cons hne, ih hrest]
    rfl

/-- Without carriage returns there is nothing to change. -/
theorem normalizeLineEnds_append_of_not_mem {cs : List Char} (h : '\r' ∉ cs) (more : List Char) :
    normalizeLineEnds (cs ++ more) = cs ++ normalizeLineEnds more := by
  induction cs with
  | nil => rfl
  | cons c rest ih =>
    rw [List.mem_cons, not_or] at h
    rw [List.cons_append, normalizeLineEnds_cons (Ne.symm h.1), ih h.2, List.cons_append]

/-- A text that ends in a carriage return ends in a line feed afterwards. -/
theorem getLast?_normalizeLineEnds {cs : List Char} (h : cs.getLast? = some '\r') :
    (normalizeLineEnds cs).getLast? = some '\n' := by
  fun_induction normalizeLineEnds cs with
  | case1 => cases h
  | case2 rest ih =>
    cases rest with
    | nil => simp at h
    | cons c rest =>
      rw [List.getLast?_cons, ih (by simpa using h)]
      rfl
  | case3 rest _ ih =>
    cases rest with
    | nil => rfl
    | cons c rest =>
      rw [List.getLast?_cons, ih (by simpa using h)]
      rfl
  | case4 c rest _ hne ih =>
    cases rest with
    | nil => exact absurd (by simpa using h) hne
    | cons d rest =>
      rw [List.getLast?_cons, ih (by simpa using h)]
      rfl

/-- Markup that is a tag once its line ends are changed does not end inside a line end. -/
theorem Token.Written.getLast?_ne {markup : List Char} {token : Token}
    (h : Written token (normalizeLineEnds markup)) : markup.getLast? ≠ some '\r' := by
  intro hreturn
  obtain ⟨front, hfront⟩ := h.suffix
  have hlast := getLast?_normalizeLineEnds hreturn
  rw [← hfront, List.getLast?_append] at hlast
  simp at hlast

end NotebookTree.Html
