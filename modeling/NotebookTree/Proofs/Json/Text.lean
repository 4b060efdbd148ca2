import Mathlib.Data.List.Nodup
import NotebookTree.Json.Parser
import NotebookTree.Json.Printer

/-!
# Texts of JSON values

`Json.Written` says which texts stand for a value: blanks may stand around the items and entries of
containers. Both printers write such texts. Values without doubles, `Json.isExact`, are the ones that
a text stands for exactly.
-/

namespace NotebookTree.Json

/-! ## Exact values -/

/-- Does a number fit in 64 bits, with or without a sign? -/
def Number.isExact : Number → Bool
  | integer n => decide (-(Nat.pow 2 63 : Nat) ≤ n) && decide (n ≤ maxWord)
  | real _ => false

mutual

/-- Is it a value without doubles? The integers of a value fit in 64 bits, and the keys of an object
are distinct. -/
def isExact : Json → Bool
  | number n => n.isExact
  | array items => areExact items
  | object entries => decide (entries.map (·.1)).Nodup && haveExact entries
  | _ => true

/-- Are the items of an array exact? -/
def areExact : List Json → Bool
  | [] => true
  | item :: rest => isExact item && areExact rest

/-- Are the values of the entries of an object exact? -/
def haveExact : List (String × Json) → Bool
  | [] => true
  | (_, value) :: rest => isExact value && haveExact rest

end

theorem haveExact_iff {entries : Json.Object} :
    haveExact entries = true ↔ ∀ entry ∈ entries, entry.2.isExact = true := by
  induction entries with
  | nil => simp [haveExact]
  | cons entry rest ih => rw [haveExact, Bool.and_eq_true, ih, List.forall_mem_cons]

mutual

/-- The number of levels that arrays and objects nest. -/
def depth : Json → Nat
  | array items => depthOfItems items + 1
  | object entries => depthOfEntries entries + 1
  | _ => 0

/-- The greatest depth of the items of an array. -/
def depthOfItems : List Json → Nat
  | [] => 0
  | item :: rest => max (depth item) (depthOfItems rest)

/-- The greatest depth of the values of the entries of an object. -/
def depthOfEntries : List (String × Json) → Nat
  | [] => 0
  | (_, value) :: rest => max (depth value) (depthOfEntries rest)

end

/-! ## Texts -/

/-- Is it a blank between the parts of a text? -/
def isBlank (c : Char) : Bool :=
  c == ' ' || c == '\n' || c == '\t' || c == '\r'

/-- Is it a text of blanks alone? -/
def areBlanks (cs : List Char) : Bool := cs.all isBlank

mutual

/-- The texts of a value. -/
inductive Written : Json → List Char → Prop where
  | null : Written null ['n', 'u', 'l', 'l']
  | yes : Written (bool true) ['t', 'r', 'u', 'e']
  | no : Written (bool false) ['f', 'a', 'l', 's', 'e']
  | integer (n : Int) : Written (int n) (Decimal.intDigits n)
  | string (s : String) : Written (string s) (stringChars s)
  | noItems : Written (array []) ['[', ']']
  | array {items : List Json} {cs : List Char} :
      WrittenItems items cs → Written (array items) ('[' :: cs ++ [']'])
  | noEntries : Written (object []) ['\x7b', '\x7d']
  | object {entries : List (String × Json)} {cs : List Char} :
      WrittenEntries entries cs → Written (object entries) ('\x7b' :: cs ++ ['\x7d'])

/-- The texts of the items of an array that has at least one. -/
inductive WrittenItems : List Json → List Char → Prop where
  | last (before after : List Char) {item : Json} {cs : List Char} : areBlanks before = true →
      areBlanks after = true → Written item cs → WrittenItems [item] (before ++ (cs ++ after))
  | cons (before : List Char) {item : Json} {rest : List Json} {cs more : List Char} :
      areBlanks before = true → Written item cs → WrittenItems rest more →
      WrittenItems (item :: rest) (before ++ (cs ++ ',' :: more))

/-- The texts of the entries of an object that has at least one. -/
inductive WrittenEntries : List (String × Json) → List Char → Prop where
  | last (before between after : List Char) {key : String} {value : Json} {cs : List Char} :
      areBlanks before = true → areBlanks between = true → areBlanks after = true →
      Written value cs →
      WrittenEntries [(key, value)] (before ++ (stringChars key ++ ':' :: (between ++ (cs ++ after))))
  | cons (before between : List Char) {key : String} {value : Json} {rest : List (String × Json)}
      {cs more : List Char} : areBlanks before = true → areBlanks between = true →
      Written value cs → WrittenEntries rest more →
      WrittenEntries ((key, value) :: rest)
        (before ++ (stringChars key ++ ':' :: (between ++ (cs ++ ',' :: more))))

end

/-! ## The compact text -/

mutual

theorem written_compactChars : ∀ {value : Json}, value.isExact = true →
    Written value (compactChars value)
  | null, _ => .null
  | bool true, _ => .yes
  | bool false, _ => .no
  | number (.integer n), _ => .integer n
  | number (.real _), h => Bool.noConfusion h
  | string s, _ => .string s
  | array [], _ => .noItems
  | array (item :: rest), h => .array (writtenItems_compactItems h (List.cons_ne_nil item rest))
  | object [], _ => .noEntries
  | object (entry :: rest), h => by
    rw [isExact, Bool.and_eq_true] at h
    exact .object (writtenEntries_compactEntries h.2 (List.cons_ne_nil entry rest))

theorem writtenItems_compactItems : ∀ {items : List Json}, areExact items = true → items ≠ [] →
    WrittenItems items (compactItems items)
  | [], _, hne => absurd rfl hne
  | [item], h, _ => by
    rw [areExact, Bool.and_eq_true] at h
    have hitem := WrittenItems.last [] [] rfl rfl (written_compactChars h.1)
    rwa [List.nil_append, List.append_nil] at hitem
  | item :: next :: rest, h, _ => by
    rw [areExact, Bool.and_eq_true] at h
    exact .cons [] rfl (written_compactChars h.1)
      (writtenItems_compactItems h.2 (List.cons_ne_nil next rest))

theorem writtenEntries_compactEntries : ∀ {entries : List (String × Json)},
    haveExact entries = true → entries ≠ [] → WrittenEntries entries (compactEntries entries)
  | [], _, hne => absurd rfl hne
  | [(key, value)], h, _ => by
    rw [haveExact, Bool.and_eq_true] at h
    have hentry : WrittenEntries [(key, value)] _ :=
      .last [] [] [] rfl rfl rfl (written_compactChars h.1)
    rwa [List.nil_append, List.nil_append, List.append_nil] at hentry
  | (key, value) :: next :: rest, h, _ => by
    rw [haveExact, Bool.and_eq_true] at h
    have hentries : WrittenEntries ((key, value) :: next :: rest) _ :=
      .cons [] [] rfl rfl (written_compactChars h.1)
        (writtenEntries_compactEntries h.2 (List.cons_ne_nil next rest))
    have htext : compactEntries ((key, value) :: next :: rest) =
        stringChars key ++ ':' :: compactChars value ++ ',' :: compactEntries (next :: rest) := rfl
    rwa [htext, List.append_assoc, List.cons_append]

end

/-! ## The indented text -/

theorem areBlanks_newLine (level : Nat) : areBlanks (newLine level) = true := by
  rw [areBlanks, newLine, List.all_cons, List.all_replicate]
  simp [isBlank]

mutual

theorem written_prettyChars (level : Nat) : ∀ {value : Json}, value.isExact = true →
    Written value (prettyChars level value)
  | null, _ => .null
  | bool true, _ => .yes
  | bool false, _ => .no
  | number (.integer n), _ => .integer n
  | number (.real _), h => Bool.noConfusion h
  | string s, _ => .string s
  | array [], _ => .noItems
  | array (item :: rest), h =>
    .array (writtenItems_prettyItems (level + 1) (areBlanks_newLine level) h
      (List.cons_ne_nil item rest))
  | object [], _ => .noEntries
  | object (entry :: rest), h => by
    rw [isExact, Bool.and_eq_true] at h
    exact .object (writtenEntries_prettyEntries (level + 1) (areBlanks_newLine level) h.2
      (List.cons_ne_nil entry rest))

theorem writtenItems_prettyItems (level : Nat) {after : List Char}
    (hafter : areBlanks after = true) : ∀ {items : List Json}, areExact items = true →
    items ≠ [] → WrittenItems items (prettyItems level items ++ after)
  | [], _, hne => absurd rfl hne
  | [item], h, _ => by
    rw [areExact, Bool.and_eq_true] at h
    rw [prettyItems, List.append_assoc]
    exact .last _ _ (areBlanks_newLine level) hafter (written_prettyChars level h.1)
  | item :: next :: rest, h, _ => by
    rw [areExact, Bool.and_eq_true] at h
    have htext : prettyItems level (item :: next :: rest) =
        newLine level ++ prettyChars level item ++ ',' :: prettyItems level (next :: rest) := rfl
    rw [htext, List.append_assoc, List.append_assoc]
    exact .cons _ (areBlanks_newLine level) (written_prettyChars level h.1)
      (writtenItems_prettyItems level hafter h.2 (List.cons_ne_nil next rest))

theorem writtenEntries_prettyEntries (level : Nat) {after : List Char}
    (hafter : areBlanks after = true) : ∀ {entries : List (String × Json)},
    haveExact entries = true → entries ≠ [] →
    WrittenEntries entries (prettyEntries level entries ++ after)
  | [], _, hne => absurd rfl hne
  | [(key, value)], h, _ => by
    rw [haveExact, Bool.and_eq_true] at h
    have htext : prettyEntries level [(key, value)] ++ after = newLine level ++ (stringChars key ++
        ':' :: ([' '] ++ (prettyChars level value ++ after))) := by
      simp [prettyEntries]
    rw [htext]
    exact .last _ _ _ (areBlanks_newLine level) rfl hafter (written_prettyChars level h.1)
  | (key, value) :: next :: rest, h, _ => by
    rw [haveExact, Bool.and_eq_true] at h
    have htext : prettyEntries level ((key, value) :: next :: rest) ++ after =
        newLine level ++ (stringChars key ++ ':' :: ([' '] ++ (prettyChars level value ++
          ',' :: (prettyEntries level (next :: rest) ++ after)))) := by
      simp [prettyEntries]
    rw [htext]
    exact .cons _ _ (areBlanks_newLine level) rfl (written_prettyChars level h.1)
      (writtenEntries_prettyEntries level hafter h.2 (List.cons_ne_nil next rest))

end

/-! ## Lines -/

theorem newline_notMem_natDigits (n : Nat) : '\n' ∉ Decimal.natDigits n := fun hmem ↦
  absurd (Nat.isDigit_of_mem_toDigits (by decide) (by decide) hmem) (by decide)

theorem newline_notMem_intDigits (n : Int) : '\n' ∉ Decimal.intDigits n := by
  unfold Decimal.intDigits
  split <;> simp [newline_notMem_natDigits]

theorem newline_notMem_positional {digits : List Char} (h : '\n' ∉ digits) (exponent : Int) :
    '\n' ∉ Decimal.positional digits exponent := by
  have htake (n : Nat) : '\n' ∉ digits.take n := fun hmem ↦ h (List.mem_of_mem_take hmem)
  have hdrop (n : Nat) : '\n' ∉ digits.drop n := fun hmem ↦ h (List.mem_of_mem_drop hmem)
  have hzeros (n : Nat) : '\n' ∉ List.replicate n '0' := fun hmem ↦
    absurd (List.eq_of_mem_replicate hmem) (by decide)
  unfold Decimal.positional
  dsimp only
  split
  · simp [h, hzeros]
  · split
    · simp [h, hzeros]
    · simp [htake, hdrop]

theorem newline_notMem_scientific (format : Decimal.FloatFormat) {digits : List Char}
    (h : '\n' ∉ digits) (leading : Int) : '\n' ∉ Decimal.scientific format digits leading := by
  have hexponent : '\n' ∉ 'e' :: (if format.signedExponent && 0 ≤ leading then ['+'] else []) := by
    split <;> decide
  unfold Decimal.scientific
  dsimp only
  rw [List.mem_append, List.mem_append, not_or, not_or]
  refine ⟨⟨?_, hexponent⟩, newline_notMem_intDigits leading⟩
  split
  · simpa using h
  · exact h

theorem newline_notMem_floatChars (format : Decimal.FloatFormat) (x : Float) :
    '\n' ∉ Decimal.floatChars format x := by
  have hsigned {magnitude : List Char} (h : '\n' ∉ magnitude) (isNegative : Prop)
      [Decidable isNegative] : '\n' ∉ if isNegative then '-' :: magnitude else magnitude := by
    split
    · exact List.not_mem_cons_of_ne_of_not_mem (by decide) h
    · exact h
  refine hsigned ?_ _
  split
  · decide
  · dsimp only
    split
    · exact newline_notMem_positional (newline_notMem_natDigits _) _
    · exact newline_notMem_scientific format (newline_notMem_natDigits _) _

theorem newline_notMem_numberChars (n : Number) : '\n' ∉ n.chars := by
  cases n with
  | integer n => exact newline_notMem_intDigits n
  | real x =>
    rw [Number.chars]
    split
    · exact newline_notMem_floatChars _ x
    · decide

theorem newline_notMem_escapedChar (c : Char) : '\n' ∉ escapedChar c := by
  have hdigit : ∀ n < 32, '\n' ≠ hexDigit n := by decide
  unfold escapedChar
  repeat' split
  all_goals simp_all
  · exact ⟨hdigit _ (by omega), hdigit _ (by omega)⟩
  · exact fun h ↦ absurd h.symm ‹_›

theorem newline_notMem_stringChars (s : String) : '\n' ∉ stringChars s := by
  simp [stringChars, newline_notMem_escapedChar]

mutual

/-- The compact text of any value stands on one line. -/
theorem newline_notMem_compactChars : ∀ value : Json, '\n' ∉ compactChars value
  | null => by decide
  | bool true => by decide
  | bool false => by decide
  | number n => newline_notMem_numberChars n
  | string s => newline_notMem_stringChars s
  | array items => by simp [compactChars, newline_notMem_compactItems items]
  | object entries => by simp [compactChars, newline_notMem_compactEntries entries]

theorem newline_notMem_compactItems : ∀ items : List Json, '\n' ∉ compactItems items
  | [] => List.not_mem_nil
  | [item] => newline_notMem_compactChars item
  | item :: next :: rest => by
    simp [compactItems, newline_notMem_compactChars item, newline_notMem_compactItems (next :: rest)]

theorem newline_notMem_compactEntries :
    ∀ entries : List (String × Json), '\n' ∉ compactEntries entries
  | [] => List.not_mem_nil
  | [(key, value)] => by
    simp [compactEntries, newline_notMem_stringChars, newline_notMem_compactChars value]
  | (key, value) :: next :: rest => by
    simp [compactEntries, newline_notMem_stringChars, newline_notMem_compactChars value,
      newline_notMem_compactEntries (next :: rest)]

end

end NotebookTree.Json
