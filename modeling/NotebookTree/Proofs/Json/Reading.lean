import NotebookTree.Proofs.Frontmatter
import NotebookTree.Proofs.Json.Text

/-!
# Reading JSON texts back

Every text of an exact value is read as that value, as long as the value does not nest too deeply:
`Json.parse?_written`. So both printers are undone by the reader.
-/

namespace NotebookTree.Json

/-! ## Blanks -/

theorem skipBlanks_of_isBlank {c : Char} (h : isBlank c = true) (cs : List Char) :
    skipBlanks (c :: cs) = skipBlanks cs := by
  rw [isBlank] at h
  rw [skipBlanks, if_pos h]

theorem skipBlanks_of_not_isBlank {c : Char} (h : isBlank c = false) (cs : List Char) :
    skipBlanks (c :: cs) = c :: cs := by
  rw [isBlank] at h
  rw [skipBlanks, if_neg (by rw [h]; exact Bool.false_ne_true)]

theorem skipBlanks_append {before : List Char} (h : areBlanks before = true) (cs : List Char) :
    skipBlanks (before ++ cs) = skipBlanks cs := by
  induction before with
  | nil => rfl
  | cons c rest ih =>
    rw [areBlanks, List.all_cons, Bool.and_eq_true] at h
    rw [List.cons_append, skipBlanks_of_isBlank h.1, ih h.2]

theorem skipBlanks_skipBlanks (cs : List Char) : skipBlanks (skipBlanks cs) = skipBlanks cs := by
  induction cs with
  | nil => rfl
  | cons c rest ih =>
    cases h : isBlank c with
    | true => rw [skipBlanks_of_isBlank h, ih]
    | false => rw [skipBlanks_of_not_isBlank h, skipBlanks_of_not_isBlank h]

/-! ## Numbers -/

/-- Does no number go on at the beginning of a text? -/
def endsNumber : List Char → Bool
  | [] => true
  | c :: _ => !c.isDigit && c != '.' && c != 'e' && c != 'E'

theorem endsNumber_append {cs rest : List Char} (h : areBlanks cs = true)
    (hrest : endsNumber rest = true) : endsNumber (cs ++ rest) = true := by
  cases cs with
  | nil => exact hrest
  | cons c more =>
    rw [areBlanks, List.all_cons, Bool.and_eq_true, isBlank] at h
    simp only [Bool.or_eq_true, beq_iff_eq] at h
    obtain ⟨((rfl | rfl) | rfl) | rfl, -⟩ := h <;> rfl

theorem le_ofDigitChars {digits : List Char} (start : Nat) :
    start ≤ Nat.ofDigitChars 10 digits start := by
  induction digits generalizing start with
  | nil => exact Nat.le_refl start
  | cons c rest ih =>
    rw [Nat.ofDigitChars_cons]
    have hrest := ih (10 * start + (c.toNat - '0'.toNat))
    omega

/-- Digits are read up to the end of the number, as long as they fit. -/
theorem integer?_append (positive : Bool) {digits rest : List Char}
    (hdigits : ∀ c ∈ digits, c.isDigit = true) (hrest : endsNumber rest = true) (start : Nat)
    (hfits : Nat.ofDigitChars 10 digits start ≤ maxWord) :
    integer? positive start (digits ++ rest) =
      some (integerNumber positive (Nat.ofDigitChars 10 digits start), rest) := by
  induction digits generalizing start with
  | nil =>
    cases rest with
    | nil => rfl
    | cons c more =>
      simp only [endsNumber, Bool.and_eq_true, Bool.not_eq_true', bne_iff_ne, ne_eq] at hrest
      simp [integer?, hrest]
  | cons c more ih =>
    obtain ⟨hc, hmore⟩ := List.forall_mem_cons.1 hdigits
    have hnext : start * 10 + (c.toNat - '0'.toNat) = 10 * start + (c.toNat - '0'.toNat) := by
      rw [Nat.mul_comm]
    rw [Nat.ofDigitChars_cons] at hfits ⊢
    have hle := Nat.le_trans (le_ofDigitChars _) hfits
    rw [List.cons_append, integer?, if_pos hc, hnext]
    dsimp only
    rw [if_neg (Nat.not_lt.2 hle), ih hmore _ hfits]

theorem exists_natDigits_eq_cons (n : Nat) :
    ∃ c more, Decimal.natDigits n = c :: more ∧ c.isDigit = true := by
  cases hchars : Decimal.natDigits n with
  | nil => exact absurd hchars Nat.toDigits_ne_nil
  | cons c more =>
    refine ⟨c, more, rfl, Nat.isDigit_of_mem_toDigits (b := 10) (n := n) (by decide) (by decide) ?_⟩
    exact List.mem_of_mem_head? (congrArg List.head? hchars)

/-- A positive number is not written with a leading zero. -/
theorem head?_toDigits {n : Nat} (h : 0 < n) : (Nat.toDigits 10 n).head? ≠ some '0' := by
  induction n using Nat.strongRecOn with
  | ind n ih =>
    by_cases hlt : n < 10
    · rw [Nat.toDigits_of_lt_base hlt, List.head?_cons]
      revert h
      exact (show ∀ n < 10, 0 < n → some n.digitChar ≠ some '0' by decide) n hlt
    · have hge : 10 ≤ n := Nat.le_of_not_lt hlt
      rw [Nat.toDigits_of_base_le (by decide) hge, List.head?_append_of_ne_nil _ Nat.toDigits_ne_nil]
      exact ih (n / 10) (Nat.div_lt_self h (by decide)) (Nat.div_pos hge (by decide))

theorem unsigned?_natDigits (positive : Bool) {n : Nat} (hfits : n ≤ maxWord) {rest : List Char}
    (hrest : endsNumber rest = true) :
    unsigned? positive (Decimal.natDigits n ++ rest) = some (integerNumber positive n, rest) := by
  have hdigits : ∀ c ∈ Nat.toDigits 10 n, c.isDigit = true := fun c hc ↦
    Nat.isDigit_of_mem_toDigits (by decide) (by decide) hc
  have hvalue : Nat.ofDigitChars 10 (Nat.toDigits 10 n) 0 = n := Nat.ofDigitChars_ten_toDigits
  have hread := integer?_append positive hdigits hrest 0 (hvalue.symm ▸ hfits)
  rw [hvalue] at hread
  rw [Decimal.natDigits]
  rcases Nat.eq_zero_or_pos n with rfl | hpos
  · -- After a zero the reader goes on without it.
    cases rest with
    | nil => rfl
    | cons c more =>
      simp only [endsNumber, Bool.and_eq_true, Bool.not_eq_true', bne_iff_ne, ne_eq] at hrest
      simp [Nat.toDigits_of_lt_base, Nat.digitChar, unsigned?, integer?, hrest]
  · have hhead := head?_toDigits hpos
    cases hchars : Nat.toDigits 10 n with
    | nil => exact absurd hchars Nat.toDigits_ne_nil
    | cons c more =>
      rw [hchars] at hhead hread hdigits
      have hne : c ≠ '0' := fun heq ↦ hhead (congrArg some heq)
      rw [List.cons_append] at hread ⊢
      rw [unsigned?, if_pos (hdigits c List.mem_cons_self), hread]
      exact fun _ _ heq _ ↦ hne heq

/-! ## Strings -/

theorem digitValue?_hexDigit {n : Nat} (h : n < 16) :
    Text.digitValue? 16 (hexDigit n) = some n :=
  (show ∀ n < 16, Text.digitValue? 16 (hexDigit n) = some n by decide) n h

/-- An escaped control character is read back. -/
theorem escape?_control {c : Char} (h : c.toNat < 0x20) (rest : List Char) :
    escape? ('u' :: '0' :: '0' :: hexDigit (c.toNat / 16) :: hexDigit (c.toNat % 16) :: rest) =
      some (c, rest) := by
  have hzero : Text.digitValue? 16 '0' = some 0 := rfl
  have hvalue : (0 * 16 + 0) * 16 + c.toNat / 16 = c.toNat / 16 := by omega
  have hsum : ((0 * 16 + 0) * 16 + c.toNat / 16) * 16 + c.toNat % 16 = c.toNat := by omega
  have hhex : hex4? ('0' :: '0' :: hexDigit (c.toNat / 16) :: hexDigit (c.toNat % 16) :: rest) =
      some (c.toNat, rest) := by
    simp only [hex4?, hzero, digitValue?_hexDigit (show c.toNat / 16 < 16 by omega),
      digitValue?_hexDigit (show c.toNat % 16 < 16 by omega), Option.bind_eq_bind,
      Option.bind_some, hsum, Option.pure_def]
  rw [escape?, unicodeEscape?, hhex, Option.bind_eq_bind, Option.bind_some]
  dsimp only
  rw [if_neg (by omega), if_neg (by omega), Char.ofNat_toNat, Option.pure_def]

/-- An escaped character is read back in one step. -/
theorem stringBody?_escapedChar (c : Char) (fuel : Nat) (more : List Char) :
    stringBody? (fuel + 1) (escapedChar c ++ more) =
      (stringBody? fuel more).map fun (body, rest) ↦ (c :: body, rest) := by
  have hescape {letter : Char} {after : List Char}
      (h : escape? (letter :: after) = some (c, more)) :
      stringBody? (fuel + 1) ('\\' :: letter :: after) =
        (stringBody? fuel more).map fun (body, rest) ↦ (c :: body, rest) := by
    rw [stringBody?, if_neg (by decide), if_pos rfl, h, Option.bind_eq_bind, Option.bind_some]
    dsimp only
    cases stringBody? fuel more <;> rfl
  unfold escapedChar
  split
  · next heq => exact hescape (by rw [heq]; rfl)
  split
  · next heq => exact hescape (by rw [heq]; rfl)
  split
  · next heq => exact hescape (by rw [heq]; rfl)
  split
  · next heq => exact hescape (by rw [heq]; rfl)
  split
  · next heq => exact hescape (by rw [heq]; rfl)
  split
  · next heq => exact hescape (by rw [heq]; rfl)
  split
  · next heq => exact hescape (by rw [heq]; rfl)
  split
  · next hcontrol => exact hescape (escape?_control hcontrol more)
  · next hquote hbackslash _ _ _ _ _ hcontrol =>
    rw [List.singleton_append, stringBody?, if_neg hquote, if_neg hbackslash, if_neg hcontrol]
    cases stringBody? fuel more <;> rfl

theorem escapedChar_ne_nil (c : Char) : escapedChar c ≠ [] := by
  unfold escapedChar
  repeat' split
  all_goals simp

theorem stringBody?_flatMap_escapedChar (chars rest : List Char) {fuel : Nat}
    (hfuel : (chars.flatMap escapedChar).length < fuel) :
    stringBody? fuel (chars.flatMap escapedChar ++ '"' :: rest) = some (chars, rest) := by
  induction chars generalizing fuel with
  | nil =>
    cases fuel with
    | zero => exact absurd hfuel (Nat.not_lt_zero _)
    | succ fuel => rfl
  | cons c more ih =>
    rw [List.flatMap_cons, List.length_append] at hfuel
    have hpos := List.length_pos_iff.2 (escapedChar_ne_nil c)
    cases fuel with
    | zero => exact absurd hfuel (Nat.not_lt_zero _)
    | succ fuel =>
      rw [List.flatMap_cons, List.append_assoc, stringBody?_escapedChar, ih (by omega)]
      rfl

/-- What a string is written as is read back after its opening quote. -/
theorem string?_append (s : String) (rest : List Char) :
    string? (s.toList.flatMap escapedChar ++ '"' :: rest) = some (s, rest) := by
  have hfuel : (s.toList.flatMap escapedChar).length <
      (s.toList.flatMap escapedChar ++ '"' :: rest).length + 1 := by
    rw [List.length_append]
    omega
  rw [string?, stringBody?_flatMap_escapedChar _ _ hfuel]
  simp only [Option.bind_eq_bind, Option.bind_some, String.ofList_toList, Option.pure_def]

/-! ## Values -/

theorem isBlank_of_isDigit {c : Char} (h : c.isDigit = true) : isBlank c = false := by
  rw [isBlank]
  simp only [Bool.or_eq_false_iff, beq_eq_false_iff_ne]
  refine ⟨⟨⟨?_, ?_⟩, ?_⟩, ?_⟩ <;> (rintro rfl; exact absurd h (by decide))

/-- A text of a value starts neither with a blank nor with a closing bracket. -/
theorem Written.exists_eq_cons {value : Json} {cs : List Char} (h : Written value cs) :
    ∃ c more, cs = c :: more ∧ isBlank c = false ∧ c ≠ ']' := by
  cases h with
  | null => exact ⟨_, _, rfl, rfl, by decide⟩
  | yes => exact ⟨_, _, rfl, rfl, by decide⟩
  | no => exact ⟨_, _, rfl, rfl, by decide⟩
  | string s => exact ⟨_, _, rfl, rfl, by decide⟩
  | noItems => exact ⟨_, _, rfl, rfl, by decide⟩
  | array h => exact ⟨_, _, rfl, rfl, by decide⟩
  | noEntries => exact ⟨_, _, rfl, rfl, by decide⟩
  | object h => exact ⟨_, _, rfl, rfl, by decide⟩
  | integer n =>
    rw [Decimal.intDigits]
    split
    · exact ⟨_, _, rfl, rfl, by decide⟩
    · obtain ⟨c, more, hchars, hc⟩ := exists_natDigits_eq_cons n.natAbs
      exact ⟨c, more, hchars, isBlank_of_isDigit hc, by rintro rfl; exact absurd hc (by decide)⟩

theorem WrittenItems.exists_skipBlanks_eq_cons {items : List Json} {cs : List Char}
    (h : WrittenItems items cs) (rest : List Char) :
    ∃ c more, skipBlanks (cs ++ rest) = c :: more ∧ c ≠ ']' := by
  cases h with
  | last before after hbefore hafter hitem =>
    obtain ⟨c, more, rfl, hc, hne⟩ := hitem.exists_eq_cons
    rw [List.append_assoc, skipBlanks_append hbefore]
    exact ⟨c, _, skipBlanks_of_not_isBlank hc _, hne⟩
  | cons before hbefore hitem hrest =>
    obtain ⟨c, more, rfl, hc, hne⟩ := hitem.exists_eq_cons
    rw [List.append_assoc, skipBlanks_append hbefore]
    exact ⟨c, _, skipBlanks_of_not_isBlank hc _, hne⟩

theorem WrittenEntries.exists_skipBlanks_eq_cons {entries : List (String × Json)} {cs : List Char}
    (h : WrittenEntries entries cs) (rest : List Char) :
    ∃ more, skipBlanks (cs ++ rest) = '"' :: more := by
  cases h with
  | last before between after hbefore hbetween hafter hvalue =>
    rw [List.append_assoc, skipBlanks_append hbefore]
    exact ⟨_, rfl⟩
  | cons before between hbefore hbetween hvalue hrest =>
    rw [List.append_assoc, skipBlanks_append hbefore]
    exact ⟨_, rfl⟩

/-- Blanks before a value are skipped. -/
theorem value?_skipBlanks (fuel levels : Nat) (cs : List Char) :
    value? fuel levels (skipBlanks cs) = value? fuel levels cs := by
  cases fuel with
  | zero => rfl
  | succ fuel => rw [value?, value?, skipBlanks_skipBlanks]

theorem items?_skipBlanks (fuel levels : Nat) (cs : List Char) :
    items? fuel levels (skipBlanks cs) = items? fuel levels cs := by
  cases fuel with
  | zero => rfl
  | succ fuel => rw [items?, items?, value?_skipBlanks]

theorem entries?_skipBlanks (fuel levels : Nat) (before : Json.Object) (cs : List Char) :
    entries? fuel levels before (skipBlanks cs) = entries? fuel levels before cs := by
  cases fuel with
  | zero => rfl
  | succ fuel => rw [entries?, entries?, skipBlanks_skipBlanks]

theorem value?_append_of_areBlanks {before : List Char} (h : areBlanks before = true)
    (fuel levels : Nat) (cs : List Char) :
    value? fuel levels (before ++ cs) = value? fuel levels cs := by
  rw [← value?_skipBlanks, skipBlanks_append h, value?_skipBlanks]

theorem entries?_append_of_areBlanks {blanks : List Char} (h : areBlanks blanks = true)
    (fuel levels : Nat) (before : Json.Object) (cs : List Char) :
    entries? fuel levels before (blanks ++ cs) = entries? fuel levels before cs := by
  rw [← entries?_skipBlanks, skipBlanks_append h, entries?_skipBlanks]

theorem not_mem_keys_of_nodup {before rest : Json.Object} {key : String} {value : Json}
    (h : ((before ++ (key, value) :: rest).map (·.1)).Nodup) : key ∉ before.map (·.1) := by
  rw [List.map_append, List.nodup_append] at h
  exact fun hmem ↦ h.2.2 key hmem key List.mem_cons_self rfl

theorem value?_of_isDigit {c : Char} (h : c.isDigit = true) (fuel levels : Nat) (cs : List Char) :
    value? (fuel + 1) levels (c :: cs) =
      (unsigned? true (c :: cs)).map fun (n, rest) ↦ (number n, rest) := by
  have hne {other : Char} (hother : other.isDigit = false) : c ≠ other := by
    rintro rfl
    exact Bool.false_ne_true (hother.symm.trans h)
  rw [value?, skipBlanks_of_not_isBlank (isBlank_of_isDigit h)]
  split
  case h_8 => rfl
  all_goals next heq => exact absurd (List.cons.inj heq).1 (hne rfl)

theorem value?_minus (fuel levels : Nat) (cs : List Char) :
    value? (fuel + 1) levels ('-' :: cs) =
      (unsigned? false cs).map fun (n, rest) ↦ (number n, rest) := rfl

theorem value?_quote (fuel levels : Nat) (cs : List Char) :
    value? (fuel + 1) levels ('"' :: cs) = (string? cs).map fun (s, rest) ↦ (string s, rest) := rfl

/-- An array that does not end at once has items. -/
theorem value?_bracket {cs more : List Char} {c : Char} (h : skipBlanks cs = c :: more)
    (hne : c ≠ ']') (fuel levels : Nat) :
    value? (fuel + 1) (levels + 1) ('[' :: cs) =
      (items? fuel levels cs).map fun (items, rest) ↦ (array items, rest) := by
  conv_lhs => whnf
  rw [← items?_skipBlanks fuel levels cs, h]
  split
  · next heq => exact absurd (List.cons.inj heq).1 hne
  · rfl

/-- An object that does not end at once has entries. -/
theorem value?_brace {cs more : List Char} {c : Char} (h : skipBlanks cs = c :: more)
    (hne : c ≠ '\x7d') (fuel levels : Nat) :
    value? (fuel + 1) (levels + 1) ('\x7b' :: cs) =
      (entries? fuel levels [] cs).map fun (entries, rest) ↦ (object entries, rest) := by
  conv_lhs => whnf
  rw [← entries?_skipBlanks fuel levels [] cs, h]
  split
  · next heq => exact absurd (List.cons.inj heq).1 hne
  · rfl

/-- An integer that fits in 64 bits is read back. -/
theorem value?_intDigits {n : Int} (hn : (Number.integer n).isExact = true) {rest : List Char}
    (hrest : endsNumber rest = true) (fuel levels : Nat) :
    value? (fuel + 1) levels (Decimal.intDigits n ++ rest) = some (int n, rest) := by
  simp only [Number.isExact, Bool.and_eq_true, decide_eq_true_eq] at hn
  have hword : (maxWord : Int) = 2 ^ 64 - 1 := rfl
  have hpow : Nat.pow 2 63 = 2 ^ 63 := rfl
  rw [Decimal.intDigits]
  split
  · next hneg =>
    have hfits : n.natAbs ≤ maxWord := by omega
    have hinteger : integerNumber false n.natAbs = .integer n := by
      have hrange : ¬(n.natAbs = 0 ∨ Nat.pow 2 63 < n.natAbs) := by omega
      have habs : -(n.natAbs : Int) = n := by omega
      rw [integerNumber, if_neg Bool.false_ne_true, if_neg hrange, habs]
    have hread := unsigned?_natDigits false hfits hrest
    rw [hinteger] at hread
    rw [List.cons_append, value?_minus, hread]
    rfl
  · next hneg =>
    have hfits : n.natAbs ≤ maxWord := by omega
    have hread := unsigned?_natDigits true hfits hrest
    have habs : (n.natAbs : Int) = n := by omega
    rw [integerNumber, if_pos rfl, habs] at hread
    obtain ⟨c, more, hchars, hc⟩ := exists_natDigits_eq_cons n.natAbs
    rw [hchars] at hread ⊢
    rw [List.cons_append, value?_of_isDigit hc, ← List.cons_append, hread]
    rfl

section Items

variable {fuel levels : Nat} {cs after more rest : List Char} {item : Json}

theorem items?_last (hitem : value? fuel levels cs = some (item, after))
    (hafter : skipBlanks after = ']' :: rest) :
    items? (fuel + 1) levels cs = some ([item], rest) := by
  rw [items?, hitem, Option.bind_eq_bind, Option.bind_some]
  dsimp only
  rw [hafter]
  rfl

theorem items?_cons (hitem : value? fuel levels cs = some (item, after))
    (hafter : skipBlanks after = ',' :: more) {items : List Json}
    (hmore : items? fuel levels more = some (items, rest)) :
    items? (fuel + 1) levels cs = some (item :: items, rest) := by
  rw [items?, hitem, Option.bind_eq_bind, Option.bind_some]
  dsimp only
  rw [hafter]
  change (items? fuel levels more >>= fun (items, rest) ↦ some (item :: items, rest)) = _
  rw [hmore]
  rfl

/-- After the key and the value of an entry a comma or a brace is read. -/
theorem entries?_key (key : String) (before : Json.Object)
    (hvalue : value? fuel levels cs = some (item, after)) {c : Char}
    (hafter : skipBlanks after = c :: more) :
    entries? (fuel + 1) levels before (stringChars key ++ ':' :: cs) =
      if c = ',' then entries? fuel levels (Object.insert key item before) more
      else if c = '\x7d' then some (Object.insert key item before, more)
      else none := by
  have hquote : stringChars key ++ ':' :: cs =
      '"' :: (key.toList.flatMap escapedChar ++ '"' :: ':' :: cs) := by
    simp [stringChars]
  rw [hquote]
  change (string? (key.toList.flatMap escapedChar ++ '"' :: ':' :: cs) >>= _) = _
  rw [string?_append, Option.bind_eq_bind, Option.bind_some]
  change (value? fuel levels cs >>= _) = _
  rw [hvalue, Option.bind_eq_bind, Option.bind_some]
  dsimp only
  rw [hafter]
  split
  · next heq =>
    obtain ⟨rfl, rfl⟩ := List.cons.inj heq
    rfl
  · next heq =>
    obtain ⟨rfl, rfl⟩ := List.cons.inj heq
    rfl
  · next hcomma hbrace =>
    rw [if_neg fun (h : c = ',') ↦ hcomma more (h ▸ rfl),
      if_neg fun (h : c = '\x7d') ↦ hbrace more (h ▸ rfl)]

variable {key : String} {before entries : Json.Object}

theorem entries?_last (hvalue : value? fuel levels cs = some (item, after))
    (hafter : skipBlanks after = '\x7d' :: rest) (hkey : key ∉ before.map (·.1)) :
    entries? (fuel + 1) levels before (stringChars key ++ ':' :: cs) =
      some (before ++ [(key, item)], rest) := by
  rw [entries?_key key before hvalue hafter, if_neg (by decide), if_pos rfl,
    Object.insert_of_not_mem item hkey]

theorem entries?_cons (hvalue : value? fuel levels cs = some (item, after))
    (hafter : skipBlanks after = ',' :: more) (hkey : key ∉ before.map (·.1))
    (hmore : entries? fuel levels (before ++ [(key, item)]) more = some (entries, rest)) :
    entries? (fuel + 1) levels before (stringChars key ++ ':' :: cs) = some (entries, rest) := by
  rw [entries?_key key before hvalue hafter, if_pos rfl, Object.insert_of_not_mem item hkey]
  exact hmore

end Items

mutual

/-- Each text of a value is read as the value. -/
theorem value?_append : ∀ {value : Json} {cs : List Char}, Written value cs →
    value.isExact = true → ∀ (rest : List Char) {fuel levels : Nat}, depth value ≤ levels →
    cs.length < fuel → endsNumber rest = true →
    value? fuel levels (cs ++ rest) = some (value, rest)
  | _, _, .null, _, _, _ + 1, _, _, _, _ => rfl
  | _, _, .yes, _, _, _ + 1, _, _, _, _ => rfl
  | _, _, .no, _, _, _ + 1, _, _, _, _ => rfl
  | _, _, .integer n, hexact, _, fuel + 1, levels, _, _, hrest =>
    value?_intDigits hexact hrest fuel levels
  | _, _, .string s, _, rest, fuel + 1, levels, _, _, _ => by
    have htext : stringChars s ++ rest = '"' :: (s.toList.flatMap escapedChar ++ '"' :: rest) := by
      simp [stringChars]
    rw [htext, value?_quote, string?_append]
    rfl
  | _, _, .noItems, _, _, _ + 1, levels + 1, _, _, _ => rfl
  | _, _, .noEntries, _, _, _ + 1, levels + 1, _, _, _ => rfl
  | _, _, @Written.array items cs hitems, hexact, rest, fuel + 1, levels + 1, hdepth, hfuel, _ => by
    obtain ⟨c, more, hskip, hne⟩ := hitems.exists_skipBlanks_eq_cons (']' :: rest)
    have htext : '[' :: cs ++ [']'] ++ rest = '[' :: (cs ++ ']' :: rest) := by simp
    have hread : items? fuel levels (cs ++ ']' :: rest) = some (items, rest) :=
      items?_append hitems hexact rest (Nat.le_of_succ_le_succ hdepth) (by simpa using hfuel)
    rw [htext, value?_bracket hskip hne, hread]
    rfl
  | _, _, @Written.object entries cs hentries, hexact, rest, fuel + 1, levels + 1, hdepth, hfuel,
      _ => by
    obtain ⟨more, hskip⟩ := hentries.exists_skipBlanks_eq_cons ('\x7d' :: rest)
    have htext : '\x7b' :: cs ++ ['\x7d'] ++ rest = '\x7b' :: (cs ++ '\x7d' :: rest) := by simp
    rw [isExact, Bool.and_eq_true, decide_eq_true_eq] at hexact
    have hread : entries? fuel levels [] (cs ++ '\x7d' :: rest) = some ([] ++ entries, rest) :=
      entries?_append hentries hexact.2 [] hexact.1 rest (Nat.le_of_succ_le_succ hdepth)
        (by simpa using hfuel)
    rw [htext, value?_brace hskip (by decide), hread]
    rfl

/-- Each text of items is read as these items, up to the closing bracket. -/
theorem items?_append : ∀ {items : List Json} {cs : List Char}, WrittenItems items cs →
    areExact items = true → ∀ (rest : List Char) {fuel levels : Nat},
    depthOfItems items ≤ levels → cs.length + 1 < fuel →
    items? fuel levels (cs ++ ']' :: rest) = some (items, rest)
  | _, _, @WrittenItems.last before after item cs hbefore hafter hitem, hexact, rest, fuel + 1,
      levels, hdepth, hfuel => by
    rw [areExact, Bool.and_eq_true] at hexact
    simp only [List.length_append] at hfuel
    have hread := value?_append hitem hexact.1 (after ++ ']' :: rest)
      (Nat.le_trans (Nat.le_max_left _ _) hdepth) (show cs.length < fuel by omega)
      (endsNumber_append hafter rfl)
    have hskip : skipBlanks (after ++ ']' :: rest) = ']' :: rest := skipBlanks_append hafter _
    refine items?_last ?_ hskip
    rw [List.append_assoc, value?_append_of_areBlanks hbefore, List.append_assoc, hread]
  | _, _, @WrittenItems.cons before item items cs more hbefore hitem hitems, hexact, rest, fuel + 1,
      levels, hdepth, hfuel => by
    rw [areExact, Bool.and_eq_true] at hexact
    simp only [List.length_append, List.length_cons] at hfuel
    have hread := value?_append hitem hexact.1 (',' :: (more ++ ']' :: rest))
      (Nat.le_trans (Nat.le_max_left _ _) hdepth) (show cs.length < fuel by omega) rfl
    have hskip : skipBlanks (',' :: (more ++ ']' :: rest)) = ',' :: (more ++ ']' :: rest) := rfl
    have hmore := items?_append hitems hexact.2 rest (Nat.le_trans (Nat.le_max_right _ _) hdepth)
      (show more.length + 1 < fuel by omega)
    refine items?_cons ?_ hskip hmore
    rw [List.append_assoc, value?_append_of_areBlanks hbefore, List.append_assoc, List.cons_append,
      hread]

/-- Each text of entries is read as these entries, up to the closing brace. -/
theorem entries?_append : ∀ {entries : List (String × Json)} {cs : List Char},
    WrittenEntries entries cs → haveExact entries = true → ∀ (before : Json.Object),
    ((before ++ entries).map (·.1)).Nodup → ∀ (rest : List Char) {fuel levels : Nat},
    depthOfEntries entries ≤ levels → cs.length + 1 < fuel →
    entries? fuel levels before (cs ++ '\x7d' :: rest) = some (before ++ entries, rest)
  | _, _, @WrittenEntries.last blanks between after key value cs hblanks hbetween hafter hvalue,
      hexact, before, hkeys, rest, fuel + 1, levels, hdepth, hfuel => by
    rw [haveExact, Bool.and_eq_true] at hexact
    simp only [List.length_append, List.length_cons] at hfuel
    have hread := value?_append hvalue hexact.1 (after ++ '\x7d' :: rest)
      (Nat.le_trans (Nat.le_max_left _ _) hdepth) (show cs.length < fuel by omega)
      (endsNumber_append hafter rfl)
    have hskip : skipBlanks (after ++ '\x7d' :: rest) = '\x7d' :: rest := skipBlanks_append hafter _
    have htext : blanks ++ (stringChars key ++ ':' :: (between ++ (cs ++ after))) ++ '\x7d' :: rest =
        blanks ++ (stringChars key ++ ':' :: (between ++ (cs ++ (after ++ '\x7d' :: rest)))) := by
      simp
    rw [htext, entries?_append_of_areBlanks hblanks]
    refine entries?_last ?_ hskip (not_mem_keys_of_nodup hkeys)
    rw [value?_append_of_areBlanks hbetween, hread]
  | _, _, @WrittenEntries.cons blanks between key value entries cs more hblanks hbetween hvalue
      hentries, hexact, before, hkeys, rest, fuel + 1, levels, hdepth, hfuel => by
    rw [haveExact, Bool.and_eq_true] at hexact
    simp only [List.length_append, List.length_cons] at hfuel
    have hread := value?_append hvalue hexact.1 (',' :: (more ++ '\x7d' :: rest))
      (Nat.le_trans (Nat.le_max_left _ _) hdepth) (show cs.length < fuel by omega) rfl
    have hskip : skipBlanks (',' :: (more ++ '\x7d' :: rest)) = ',' :: (more ++ '\x7d' :: rest) := rfl
    have hassoc : before ++ (key, value) :: entries = before ++ [(key, value)] ++ entries := by simp
    have hmore := entries?_append hentries hexact.2 (before ++ [(key, value)]) (hassoc ▸ hkeys) rest
      (Nat.le_trans (Nat.le_max_right _ _) hdepth) (show more.length + 1 < fuel by omega)
    have htext : blanks ++ (stringChars key ++ ':' :: (between ++ (cs ++ ',' :: more))) ++
        '\x7d' :: rest = blanks ++ (stringChars key ++
          ':' :: (between ++ (cs ++ ',' :: (more ++ '\x7d' :: rest)))) := by
      simp
    rw [htext, entries?_append_of_areBlanks hblanks, hassoc]
    refine entries?_cons ?_ hskip (not_mem_keys_of_nodup hkeys) hmore
    rw [value?_append_of_areBlanks hbetween, hread]

end

/-- A text of an exact value that does not nest too deeply is read as that value. -/
theorem parse?_written {value : Json} {cs : List Char} (h : Written value cs)
    (hexact : value.isExact = true) (hdepth : depth value ≤ maxDepth) :
    parse? (String.ofList cs) = some value := by
  have hread := value?_append h hexact [] hdepth (Nat.lt_succ_self cs.length) rfl
  rw [List.append_nil] at hread
  rw [parse?, String.toList_ofList]
  dsimp only
  rw [hread]
  rfl

theorem parse?_compact {value : Json} (hexact : value.isExact = true)
    (hdepth : depth value ≤ maxDepth) : parse? value.compact = some value :=
  parse?_written (written_compactChars hexact) hexact hdepth

theorem parse?_pretty {value : Json} (hexact : value.isExact = true)
    (hdepth : depth value ≤ maxDepth) : parse? value.pretty = some value :=
  parse?_written (written_prettyChars 0 hexact) hexact hdepth

end NotebookTree.Json
