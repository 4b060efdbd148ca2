import NotebookTree.Proofs.Html.StandIn
import NotebookTree.Proofs.Json.Reading
import NotebookTree.Configuration.Form

/-!
# Lines of a TOML text

A text is read line by line: `Toml.statements?_append`. The lines of a plain text are headers and
assignments of values to keys, both of one part without quotes: `Toml.statement?_header` and
`Toml.statement?_assignment`. Truth values and natural numbers are read as they are written.
-/

namespace NotebookTree.Toml

/-! ## Statements -/

theorem statementsWithin?_succ {fuel : Nat} {chars : List Char} {statements : List Statement}
    (h : statementsWithin? fuel chars = some statements) :
    statementsWithin? (fuel + 1) chars = some statements := by
  induction fuel generalizing chars statements with
  | zero =>
    cases chars with
    | nil => exact h
    | cons c rest => cases h
  | succ fuel ih =>
    cases chars with
    | nil => exact h
    | cons c rest =>
      obtain ⟨⟨statement, more⟩, hstatement, h⟩ := Option.bind_eq_some_iff.1 h
      obtain ⟨others, hothers, h⟩ := Option.bind_eq_some_iff.1 h
      exact Option.bind_eq_some_iff.2 ⟨(statement, more), hstatement,
        Option.bind_eq_some_iff.2 ⟨others, ih hothers, h⟩⟩

theorem statementsWithin?_of_le {fuel : Nat} {chars : List Char} {statements : List Statement}
    (h : statements? chars = some statements) (hfuel : chars.length ≤ fuel) :
    statementsWithin? fuel chars = some statements := by
  induction hfuel with
  | refl => exact h
  | step _ ih => exact statementsWithin?_succ ih

/-- A text is read line by line. -/
theorem statements?_append {line rest : List Char} {statement : Statement}
    {statements : List Statement} (hne : line ≠ [])
    (hline : statement? (line ++ rest) = some (statement, rest))
    (hrest : statements? rest = some statements) :
    statements? (line ++ rest) = some (statement :: statements) := by
  obtain ⟨c, more, rfl⟩ := List.exists_cons_of_ne_nil hne
  have hothers : statementsWithin? (more ++ rest).length rest = some statements :=
    statementsWithin?_of_le hrest (by simp)
  exact Option.bind_eq_some_iff.2 ⟨(statement, rest), hline,
    Option.bind_eq_some_iff.2 ⟨statements, hothers, rfl⟩⟩

/-! ## Keys -/

/-- What starts with characters of one kind does not start with a character of another kind. -/
theorem append_ne_cons {p : Char → Bool} {word : List Char} (hne : word ≠ [])
    (hword : ∀ c ∈ word, p c = true) {c : Char} (hc : p c = false) {rest more : List Char} :
    word ++ rest ≠ c :: more := by
  obtain ⟨first, others, rfl⟩ := List.exists_cons_of_ne_nil hne
  intro heq
  rw [← (List.cons.inj heq).1, hword first List.mem_cons_self] at hc
  cases hc

/-- Is it a part of a key that needs no quotes? -/
def IsBare (part : List Char) : Prop := part ≠ [] ∧ part.all isKeyChar = true

instance (part : List Char) : Decidable (IsBare part) := inferInstanceAs (Decidable (_ ∧ _))

theorem IsBare.isKeyChar {part : List Char} (h : IsBare part) :
    ∀ c ∈ part, isKeyChar c = true := List.all_eq_true.1 h.2

section Bare

variable {part : List Char} (hpart : IsBare part)
include hpart

theorem keyPart?_append {c : Char} (hc : isKeyChar c = false) (rest : List Char) :
    keyPart? (part ++ c :: rest) = some (String.ofList part, c :: rest) := by
  have htake : (part ++ c :: rest).takeWhile isKeyChar = part := by
    rw [List.takeWhile_append_of_pos hpart.isKeyChar, List.takeWhile_cons_of_neg (by simp [hc]),
      List.append_nil]
  have hdrop : (part ++ c :: rest).dropWhile isKeyChar = c :: rest := by
    rw [List.dropWhile_append_of_pos hpart.isKeyChar, List.dropWhile_cons_of_neg (by simp [hc])]
  unfold keyPart?
  split
  · next heq => exact absurd heq (append_ne_cons hpart.1 hpart.isKeyChar (by decide))
  · next heq => exact absurd heq (append_ne_cons hpart.1 hpart.isKeyChar (by decide))
  · rw [htake, hdrop]
    exact if_neg (by simp [hpart.1])

theorem skipIndent_append (rest : List Char) : skipIndent (part ++ rest) = part ++ rest := by
  cases heq : part ++ rest with
  | nil => rfl
  | cons first more =>
    refine List.dropWhile_cons_of_neg fun h ↦ ?_
    rw [Text.isIndent, Bool.or_eq_true, beq_iff_eq, beq_iff_eq] at h
    obtain rfl | rfl := h
    · exact append_ne_cons hpart.1 hpart.isKeyChar (by decide) heq
    · exact append_ne_cons hpart.1 hpart.isKeyChar (by decide) heq

theorem skipLineEnd?_append (rest : List Char) : skipLineEnd? (part ++ rest) = none := by
  have hne {c : Char} {more : List Char} (hc : isKeyChar c = false) : part ++ rest ≠ c :: more :=
    append_ne_cons hpart.1 hpart.isKeyChar hc
  have hcomment : skipComment (part ++ rest) = part ++ rest := by
    unfold skipComment
    split
    · next heq => exact absurd heq (hne (by decide))
    · rfl
  rw [skipLineEnd?, skipIndent_append hpart, hcomment]
  split
  · next heq => exact absurd (List.append_eq_nil_iff.1 heq).1 hpart.1
  · next heq => exact absurd heq (hne (by decide))
  · next heq => exact absurd heq (hne (by decide))
  · rfl

/-- A key of one part is read up to what stands behind it. -/
theorem key?_append {c d : Char} (hc : isKeyChar c = false) {rest more : List Char}
    (hskip : skipIndent (c :: rest) = d :: more) (hd : d ≠ '.') (fuel : Nat) :
    key? (fuel + 1) (part ++ c :: rest) = some (⟨[], String.ofList part⟩, d :: more) := by
  rw [key?, skipIndent_append hpart, keyPart?_append hpart hc, Option.bind_eq_bind,
    Option.bind_some]
  dsimp only
  rw [hskip]
  split
  · next heq => exact absurd (List.cons.inj heq).1 hd
  · rfl

/-- A header of one part without quotes. -/
theorem statement?_header (rest : List Char) :
    statement? ('[' :: part ++ ']' :: '\n' :: rest) =
      some (.header ⟨[], String.ofList part⟩, rest) := by
  have hkey : key? (depthLimit - 1) (part ++ ']' :: '\n' :: rest) =
      some (⟨[], String.ofList part⟩, ']' :: '\n' :: rest) :=
    key?_append hpart (by decide) rfl (by decide) 78
  have hskip : skipIndent ('[' :: part ++ ']' :: '\n' :: rest) =
      '[' :: (part ++ ']' :: '\n' :: rest) := rfl
  unfold statement?
  rw [hskip]
  split
  · next heq =>
    exact absurd (List.cons.inj heq).2 (append_ne_cons hpart.1 hpart.isKeyChar (by decide))
  · next heq =>
    rw [← (List.cons.inj heq).2, hkey]
    rfl
  · next hnot => exact absurd rfl (hnot _)

/-- An assignment to a key of one part without quotes. -/
theorem statement?_assignment {written : List Char} {value : Toml} {rest : List Char}
    (hwritten : skipIndent (written ++ '\n' :: rest) = written ++ '\n' :: rest)
    (hvalue : ∀ fuel, value? (fuel + 1) (depthLimit - 1) (written ++ '\n' :: rest) =
      some (value, '\n' :: rest)) :
    statement? (part ++ ' ' :: '=' :: ' ' :: (written ++ '\n' :: rest)) =
      some (.assignment ⟨[], String.ofList part⟩ value, rest) := by
  have hkey : key? (depthLimit - 1)
      (part ++ ' ' :: '=' :: ' ' :: (written ++ '\n' :: rest)) =
        some (⟨[], String.ofList part⟩, '=' :: ' ' :: (written ++ '\n' :: rest)) :=
    key?_append hpart (by decide) rfl (by decide) 78
  have hstart : skipIndent (' ' :: (written ++ '\n' :: rest)) = written ++ '\n' :: rest := hwritten
  unfold statement?
  rw [skipIndent_append hpart]
  split
  · next heq => exact absurd heq (append_ne_cons hpart.1 hpart.isKeyChar (by decide))
  · next heq => exact absurd heq (append_ne_cons hpart.1 hpart.isKeyChar (by decide))
  · rw [skipLineEnd?_append hpart, hkey, Option.bind_eq_bind, Option.bind_some]
    dsimp only
    rw [Text.dropStart?, if_pos rfl, Text.dropStart?, Option.bind_eq_bind, Option.bind_some]
    rw [hstart, hvalue]
    rfl

end Bare

/-! ## Values -/

theorem value?_bool (b : Bool) (fuel depth : Nat) (rest : List Char) :
    value? (fuel + 1) depth (Configuration.boolChars b ++ '\n' :: rest) =
      some (.bool b, '\n' :: rest) := by
  cases b <;> rfl

/-- A quote or a backslash after a backslash stands for itself. -/
theorem basicText?_escaped {c : Char} (hc : c = '"' ∨ c = '\\') (rest : List Char) :
    basicText? ('\\' :: c :: rest) = (basicText? rest).map (consText c) := by
  rw [Option.map_eq_bind]
  obtain rfl | rfl := hc <;> rfl

theorem basicText?_flatMap {text : List Char} (htext : ∀ c ∈ text, isTextChar c = true)
    (rest : List Char) :
    basicText? (text.flatMap Configuration.quotedChar ++ '"' :: rest) = some (text, rest) := by
  induction text with
  | nil => rfl
  | cons c text ih =>
    obtain ⟨hc, hmore⟩ := List.forall_mem_cons.1 htext
    rw [List.flatMap_cons, List.append_assoc]
    by_cases hquote : c = '"' ∨ c = '\\'
    · rw [Configuration.quotedChar, if_pos hquote, List.cons_append, List.singleton_append,
        basicText?_escaped hquote, ih hmore]
      rfl
    · rw [Configuration.quotedChar, if_neg hquote, List.singleton_append]
      obtain ⟨hdouble, hback⟩ := not_or.1 hquote
      unfold basicText?
      split
      · next heq => cases heq
      · next heq => exact absurd (List.cons.inj heq).1 hdouble
      · next heq => exact absurd (List.cons.inj heq).1 hback
      · next heq => exact absurd (List.cons.inj heq).1 hback
      · next heq => exact absurd (List.cons.inj heq).1 hback
      · next heq =>
        obtain ⟨rfl, rfl⟩ := List.cons.inj heq
        rw [if_pos (by simp [hc, hback]), ih hmore]
        rfl

/-- A text between quotes. -/
theorem value?_quoted {text : List Char} (htext : ∀ c ∈ text, isTextChar c = true)
    (fuel depth : Nat) (rest : List Char) :
    value? (fuel + 1) depth
        ('"' :: text.flatMap Configuration.quotedChar ++ '"' :: '\n' :: rest) =
      some (.string (String.ofList text), '\n' :: rest) := by
  have hbasic := basicText?_flatMap htext ('\n' :: rest)
  -- Two more quotes would open a text in several lines.
  have hquoted : quotedText? ('"' :: text.flatMap Configuration.quotedChar ++ '"' :: '\n' :: rest) =
      basicText? (text.flatMap Configuration.quotedChar ++ '"' :: '\n' :: rest) := by
    cases text with
    | nil => rfl
    | cons c text =>
      rw [List.flatMap_cons, Configuration.quotedChar]
      split
      · rfl
      · next hquote =>
        unfold quotedText?
        split
        · next heq => exact absurd (.inl (List.cons.inj (List.cons.inj heq).2).1) hquote
        · next heq =>
          rw [← (List.cons.inj heq).2]
          rfl
        · next heq => cases heq
        · next heq => cases heq
        · next hnot _ _ => exact absurd rfl (hnot _)
  refine Option.bind_eq_some_iff.2 ⟨(text, '\n' :: rest), ?_, rfl⟩
  exact hquoted.trans hbasic

section Digits

variable {digits : List Char} (hdigits : ∀ c ∈ digits, c.isDigit = true)
include hdigits

/-- Behind a field that starts digits stands nothing but more digits. -/
theorem dropStart?_of_field? {count low high n : Nat} {rest : List Char} {c : Char}
    (hc : c.isDigit = false) (h : field? count low high digits = some (n, rest)) :
    Text.dropStart? [c] rest = none := by
  have hrest : ∀ d ∈ rest, d.isDigit = true := by
    unfold field? at h
    dsimp only at h
    split at h
    · obtain ⟨-, rfl⟩ := Prod.mk.inj (Option.some.inj h)
      exact fun d hd ↦ hdigits d (List.mem_of_mem_drop hd)
    · cases h
  cases rest with
  | nil => rfl
  | cons first more =>
    have hne : c ≠ first := by
      rintro rfl
      exact absurd (hrest c List.mem_cons_self) (by simp [hc])
    rw [Text.dropStart?, if_neg hne]

/-- Digits alone are no date and no time. -/
theorem isDateTime_of_digits : isDateTime digits = false := by
  have hdate : skipDate? digits = none := by
    unfold skipDate?
    cases hyear : field? 4 0 9999 digits with
    | none => rfl
    | some year =>
      rw [Option.bind_eq_bind, Option.bind_some]
      dsimp only
      rw [dropStart?_of_field? hdigits (by decide) hyear]
      rfl
  have htime : skipTime? digits = none := by
    unfold skipTime?
    cases hhour : field? 2 0 23 digits with
    | none => rfl
    | some hour =>
      rw [Option.bind_eq_bind, Option.bind_some]
      dsimp only
      rw [dropStart?_of_field? hdigits (by decide) hhour]
      rfl
  rw [isDateTime, hdate, htime]
  rfl

theorem ungroup?_of_digits (hne : digits ≠ []) : ungroup? Char.isDigit digits = some digits := by
  induction digits with
  | nil => exact absurd rfl hne
  | cons c rest ih =>
    obtain ⟨hc, hrest⟩ := List.forall_mem_cons.1 hdigits
    cases rest with
    | nil => rw [ungroup?, if_pos hc]
    | cons second more =>
      have hsecond : second ≠ '_' := by
        rintro rfl
        exact absurd (hrest _ List.mem_cons_self) (by decide)
      rw [ungroup?, if_pos hc, ih hrest (List.cons_ne_nil _ _), Option.map_some]
      · exact List.cons_ne_nil _ _
      · exact fun more heq ↦ hsecond (List.cons.inj heq).1

end Digits

theorem isDigit_of_mem_natDigits {n : Nat} {c : Char} (h : c ∈ Decimal.natDigits n) :
    c.isDigit = true :=
  Nat.isDigit_of_mem_toDigits (by decide) (by decide) h

theorem isBare_natDigits (n : Nat) : IsBare (Decimal.natDigits n) := by
  refine ⟨Nat.toDigits_ne_nil, List.all_eq_true.2 fun c hc ↦ ?_⟩
  simp [isKeyChar, Text.isAsciiAlphanum, isDigit_of_mem_natDigits hc]

theorem natDigits_append_ne_cons {n : Nat} {c : Char} (hc : c.isDigit = false)
    {rest more : List Char} : Decimal.natDigits n ++ rest ≠ c :: more :=
  append_ne_cons Nat.toDigits_ne_nil (fun _ ↦ isDigit_of_mem_natDigits) hc

theorem natDigits_ne_cons {n : Nat} {c : Char} (hc : c.isDigit = false) {more : List Char} :
    Decimal.natDigits n ≠ c :: more := by
  rw [← List.append_nil (Decimal.natDigits n)]
  exact natDigits_append_ne_cons hc

/-- The digits of a number have no superfluous zeros. -/
theorem wholeDigits?_natDigits (n : Nat) :
    wholeDigits? (Decimal.natDigits n) = some (Decimal.natDigits n) := by
  have hungroup : ungroup? Char.isDigit (Decimal.natDigits n) = some (Decimal.natDigits n) :=
    ungroup?_of_digits (fun _ ↦ isDigit_of_mem_natDigits) Nat.toDigits_ne_nil
  unfold wholeDigits?
  rw [hungroup]
  split
  · next second more heq =>
    rcases Nat.eq_zero_or_pos n with rfl | hpos
    · cases heq
    · have hhead := Json.head?_toDigits hpos
      rw [show Nat.toDigits 10 n = '0' :: second :: more from Option.some.inj heq] at hhead
      exact absurd rfl hhead
  · rfl

theorem integerOfWord?_natDigits {n : Nat} (hn : n < integerBound) :
    integerOfWord? (Decimal.natDigits n) = some (.integer n) := by
  have hsecond {c : Char} {more : List Char} (heq : Decimal.natDigits n = '0' :: c :: more) :
      c.isDigit = true :=
    isDigit_of_mem_natDigits (n := n) (by rw [heq]; simp)
  unfold integerOfWord?
  split
  · next heq => exact absurd (hsecond heq) (by decide)
  · next heq => exact absurd (hsecond heq) (by decide)
  · next heq => exact absurd (hsecond heq) (by decide)
  · have hsign : splitSign (Decimal.natDigits n) = ([], Decimal.natDigits n) := by
      unfold splitSign
      split
      · next heq => exact absurd heq (natDigits_ne_cons (by decide))
      · next heq => exact absurd heq (natDigits_ne_cons (by decide))
      · rfl
    have hrange : -(integerBound : Int) ≤ (n : Int) ∧ (n : Int) < integerBound := by omega
    rw [hsign]
    dsimp only
    rw [wholeDigits?_natDigits, Option.bind_eq_bind, Option.bind_some, if_neg (by decide),
      Decimal.natDigits, Text.ofDigits_toDigits, ofInteger?, if_pos hrange]

theorem ofWord?_natDigits {n : Nat} (hn : n < integerBound) :
    ofWord? (Decimal.natDigits n) = some (.integer n) := by
  rw [ofWord?, if_neg (natDigits_ne_cons (by decide)), if_neg (natDigits_ne_cons (by decide)),
    isDateTime_of_digits fun _ ↦ isDigit_of_mem_natDigits, integerOfWord?_natDigits hn]
  rfl

theorem word?_append {word : List Char} (hword : ∀ c ∈ word, isWordChar c = true)
    (rest : List Char) :
    word? (word ++ '\n' :: rest) = (ofWord? word).map (·, '\n' :: rest) := by
  have htake : (word ++ '\n' :: rest).takeWhile isWordChar = word := by
    rw [List.takeWhile_append_of_pos hword, List.takeWhile_cons_of_neg (by decide), List.append_nil]
  have hdrop : (word ++ '\n' :: rest).dropWhile isWordChar = '\n' :: rest := by
    rw [List.dropWhile_append_of_pos hword, List.dropWhile_cons_of_neg (by decide)]
  unfold word?
  rw [htake, hdrop]
  rfl

theorem value?_natDigits {n : Nat} (hn : n < integerBound) (fuel depth : Nat) (rest : List Char) :
    value? (fuel + 1) depth (Decimal.natDigits n ++ '\n' :: rest) =
      some (.integer n, '\n' :: rest) := by
  have hread : word? (Decimal.natDigits n ++ '\n' :: rest) = some (.integer n, '\n' :: rest) := by
    rw [word?_append, ofWord?_natDigits hn, Option.map_some]
    intro c hc
    simp [isWordChar, Text.isAsciiAlphanum, isDigit_of_mem_natDigits hc]
  unfold value?
  split
  · next heq => exact absurd heq (natDigits_append_ne_cons (by decide))
  · next heq => exact absurd heq (natDigits_append_ne_cons (by decide))
  · next heq => exact absurd heq (natDigits_append_ne_cons (by decide))
  · next heq => exact absurd heq (natDigits_append_ne_cons (by decide))
  · exact hread

end NotebookTree.Toml
