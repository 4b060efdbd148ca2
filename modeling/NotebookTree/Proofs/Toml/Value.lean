import Mathlib.Data.Option.Basic
import NotebookTree.Proofs.Toml.Setting

/-!
# The values of a TOML text

A value that is read is an array, a table between braces, a text or a word: `Toml.value?_cases`. An
integer fits in 64 bits with a sign. `Toml.Fits` says so of all integers in a value, however deep
they stand. Each reader gives such values, and assignments and headers only put together what they
are given, so `Toml.allFit_of_parse?` says it of a whole text.
-/

namespace NotebookTree.Toml

/-! ## Values that fit -/

/-- Does an integer fit in 64 bits with a sign? -/
def InRange (n : Int) : Prop := -(integerBound : Int) ≤ n ∧ n < integerBound

/-- Do all integers in a value fit in 64 bits with a sign? -/
inductive Fits : Toml → Prop
  | string (text : String) : Fits (.string text)
  | integer {n : Int} (h : InRange n) : Fits (.integer n)
  | real (x : Float) : Fits (.real x)
  | bool (b : Bool) : Fits (.bool b)
  | dateTime (text : String) : Fits (.dateTime text)
  | array {items : List Toml} (h : ∀ item ∈ items, Fits item) : Fits (.array items)
  | table {origin : Origin} {entries : Entries} (h : ∀ entry ∈ entries, Fits entry.2) :
      Fits (.table origin entries)
  | tables {items : List Entries} (h : ∀ entries ∈ items, ∀ entry ∈ entries, Fits entry.2) :
      Fits (.tables items)

/-- Do all integers in the values of entries fit in 64 bits with a sign? -/
def AllFit (entries : Entries) : Prop := ∀ entry ∈ entries, Fits entry.2

variable {key : String} {value : Toml} {entries changed : Entries}

theorem AllFit.append (h : AllFit entries) (hvalue : Fits value) :
    AllFit (entries ++ [(key, value)]) := by
  intro entry hmem
  obtain hmem | hmem := List.mem_append.1 hmem
  · exact h entry hmem
  · obtain rfl := List.mem_singleton.1 hmem
    exact hvalue

theorem AllFit.set (h : AllFit entries) (hvalue : Fits value) : AllFit (entries.set key value) := by
  induction entries with
  | nil => exact List.forall_mem_singleton.2 hvalue
  | cons entry rest ih =>
    obtain ⟨hentry, hrest⟩ := List.forall_mem_cons.1 h
    unfold Entries.set
    split
    · exact List.forall_mem_cons.2 ⟨hvalue, hrest⟩
    · exact List.forall_mem_cons.2 ⟨hentry, ih hrest⟩

theorem AllFit.of_lookup (h : AllFit entries) (hlookup : entries.lookup key = some value) :
    Fits value := by
  obtain ⟨before, after, rfl, -⟩ := List.lookup_eq_some_iff.1 hlookup
  exact h (key, value) (List.mem_append_right _ List.mem_cons_self)

theorem AllFit.of_table {origin : Origin} (h : Fits (.table origin entries)) : AllFit entries := by
  cases h with
  | table hentries => exact hentries

theorem AllFit.of_tables {items : List Entries} (h : Fits (.tables items)) :
    ∀ entries ∈ items, AllFit entries := by
  cases h with
  | tables hitems => exact hitems

theorem allFit_nil : AllFit [] := fun _ hmem ↦ absurd hmem List.not_mem_nil

theorem fits_tables_append {items : List Entries} {last : Entries}
    (h : ∀ entries ∈ items, AllFit entries) (hlast : AllFit last) :
    Fits (.tables (items ++ [last])) := by
  refine .tables fun entries hmem ↦ ?_
  obtain hmem | hmem := List.mem_append.1 hmem
  · exact h entries hmem
  · obtain rfl := List.mem_singleton.1 hmem
    exact hlast

/-! ## Assignments and headers -/

theorem AllFit.within? {dotted : Bool} {change : Origin → Entries → Option Entries}
    (hchange : ∀ {origin before after}, AllFit before → change origin before = some after →
      AllFit after) {origin : Origin} {path : List String}
    (h : AllFit entries) (hwithin : within? dotted change origin path entries = some changed) :
    AllFit changed := by
  induction path generalizing origin entries changed with
  | nil => exact hchange h hwithin
  | cons key path ih =>
    unfold Toml.within? at hwithin
    split at hwithin
    · obtain ⟨below, hbelow, hset⟩ := Option.bind_eq_some_iff.1 hwithin
      obtain rfl := Option.some.inj hset
      exact h.set (.table (ih (fun _ hmem ↦ absurd hmem List.not_mem_nil) hbelow))
    · next o found hfound =>
      split at hwithin
      · cases hwithin
      · obtain ⟨below, hbelow, hset⟩ := Option.bind_eq_some_iff.1 hwithin
        obtain rfl := Option.some.inj hset
        exact h.set (.table (ih (.of_table (h.of_lookup hfound)) hbelow))
    · next items hitems =>
      obtain ⟨last, hlast, hset⟩ := Option.bind_eq_some_iff.1 hwithin
      obtain rfl := Option.some.inj hset
      have hall : ∀ entries ∈ items, AllFit entries := .of_tables (h.of_lookup hitems)
      have hold : AllFit (items.getLast?.getD []) := by
        cases hget : items.getLast? with
        | none => exact allFit_nil
        | some entries => exact hall entries (List.mem_of_getLast? hget)
      exact h.set (fits_tables_append
        (fun entries hmem ↦ hall entries (List.dropLast_subset items hmem)) (ih hold hlast))
    · cases hwithin

theorem AllFit.assign? {key : Key} (h : AllFit entries) (hvalue : Fits value)
    (hassign : assign? entries key value = some changed) : AllFit changed := by
  rw [assign?_eq] at hassign
  refine h.within? (fun hbefore hafter ↦ ?_) hassign
  obtain ⟨-, rfl⟩ := assignTo?_eq_some hafter
  exact hbefore.append hvalue

theorem AllFit.assignAll? {assignments : List (Key × Toml)} (h : AllFit entries)
    (hvalues : ∀ assignment ∈ assignments, Fits assignment.2)
    (hassign : assignAll? entries assignments = some changed) : AllFit changed := by
  induction assignments generalizing entries with
  | nil =>
    obtain rfl := Option.some.inj hassign
    exact h
  | cons assignment rest ih =>
    obtain ⟨hvalue, hrest⟩ := List.forall_mem_cons.1 hvalues
    obtain ⟨next, hnext, hmore⟩ := Option.bind_eq_some_iff.1 hassign
    exact ih (h.assign? hvalue hnext) hrest hmore

theorem AllFit.declare? {s : Section} {origin : Origin} (h : AllFit entries)
    (hvalues : ∀ assignment ∈ s.assignments, Fits assignment.2)
    (hdeclare : declare? s origin entries = some changed) : AllFit changed := by
  unfold Toml.declare? at hdeclare
  split at hdeclare
  · obtain ⟨made, hmade, hset⟩ := Option.bind_eq_some_iff.1 hdeclare
    obtain rfl := Option.some.inj hset
    exact h.append (.table (allFit_nil.assignAll? hvalues hmade))
  · next found _ hfound =>
    obtain ⟨made, hmade, hset⟩ := Option.bind_eq_some_iff.1 hdeclare
    obtain rfl := Option.some.inj hset
    exact h.set (.table ((AllFit.of_table (h.of_lookup hfound)).assignAll? hvalues hmade))
  · obtain ⟨made, hmade, hset⟩ := Option.bind_eq_some_iff.1 hdeclare
    obtain rfl := Option.some.inj hset
    exact h.append (.tables (List.forall_mem_singleton.2 (allFit_nil.assignAll? hvalues hmade)))
  · next items _ hitems =>
    obtain ⟨made, hmade, hset⟩ := Option.bind_eq_some_iff.1 hdeclare
    obtain rfl := Option.some.inj hset
    exact h.set (fits_tables_append (.of_tables (h.of_lookup hitems))
      (allFit_nil.assignAll? hvalues hmade))
  · cases hdeclare

theorem AllFit.addSections? {sections : List Section} (h : AllFit entries)
    (hvalues : ∀ s ∈ sections, ∀ assignment ∈ s.assignments, Fits assignment.2)
    (hadd : sections.foldlM addSection? entries = some changed) : AllFit changed := by
  induction sections generalizing entries with
  | nil =>
    obtain rfl := Option.some.inj hadd
    exact h
  | cons s rest ih =>
    obtain ⟨hs, hrest⟩ := List.forall_mem_cons.1 hvalues
    obtain ⟨next, hnext, hmore⟩ := Option.bind_eq_some_iff.1 hadd
    rw [addSection?_eq] at hnext
    exact ih (h.within? (fun hbefore hafter ↦ hbefore.declare? hs hafter) hnext) hrest hmore

theorem allFit_of_ofStatements? {statements : List Statement}
    (hvalues : ∀ key value, .assignment key value ∈ statements → Fits value)
    (h : ofStatements? statements = some entries) : AllFit entries := by
  obtain ⟨first, hfirst, hmore⟩ := Option.bind_eq_some_iff.1 h
  have hstart : AllFit first := allFit_nil.assignAll?
    (fun assignment hmem ↦ hvalues _ _ (assignment_mem_of_mem_sections hmem)) hfirst
  exact hstart.addSections?
    (fun s hs assignment hmem ↦ hvalues _ _ (assignment_mem_of_mem_section hs hmem)) hmore

/-! ## Reading -/

theorem ofInteger?_eq_some {n : Int} (h : ofInteger? n = some value) :
    value = .integer n ∧ InRange n := by
  unfold ofInteger? at h
  split at h
  · next hrange => exact ⟨(Option.some.inj h).symm, hrange⟩
  · cases h

theorem integerOfWord?_eq_some {word : List Char} (h : integerOfWord? word = some value) :
    ∃ n, value = .integer n ∧ InRange n := by
  have hbased {base : Nat} {digits : List Char} (h : ofBasedDigits? base digits = some value) :
      ∃ n, value = .integer n ∧ InRange n := by
    obtain ⟨found, -, hvalue⟩ := Option.bind_eq_some_iff.1 h
    exact ⟨_, ofInteger?_eq_some hvalue⟩
  unfold integerOfWord? at h
  split at h
  · exact hbased h
  · exact hbased h
  · exact hbased h
  · obtain ⟨digits, -, hvalue⟩ := Option.bind_eq_some_iff.1 h
    exact ⟨_, ofInteger?_eq_some hvalue⟩

theorem decimalOfWord?_eq_some {word : List Char} (h : decimalOfWord? word = some value) :
    ∃ x, value = .real x := by
  unfold decimalOfWord? at h
  generalize splitSign word = signed at h
  obtain ⟨sign, rest⟩ := signed
  obtain ⟨whole, -, h⟩ := Option.bind_eq_some_iff.1 h
  obtain ⟨places, -, h⟩ := Option.bind_eq_some_iff.1 h
  obtain ⟨-, -, h⟩ := Option.bind_eq_some_iff.1 h
  split at h
  · exact ⟨_, (Option.some.inj h).symm⟩
  · split at h
    · exact ⟨_, (Option.some.inj h).symm⟩
    · cases h

theorem specialOfWord?_eq_some {word : List Char} (h : specialOfWord? word = some value) :
    ∃ x, value = .real x := by
  unfold specialOfWord? at h
  split at h
  · exact ⟨_, (Option.some.inj h).symm⟩
  · exact ⟨_, (Option.some.inj h).symm⟩
  · cases h

/-- The values of words. -/
inductive IsWord : Toml → Prop
  | bool (b : Bool) : IsWord (.bool b)
  | dateTime (text : String) : IsWord (.dateTime text)
  | integer {n : Int} (h : InRange n) : IsWord (.integer n)
  | real (x : Float) : IsWord (.real x)

theorem isWord_of_ofWord? {word : List Char} (h : ofWord? word = some value) : IsWord value := by
  unfold ofWord? at h
  split at h
  · exact Option.some.inj h ▸ .bool true
  split at h
  · exact Option.some.inj h ▸ .bool false
  split at h
  · exact Option.some.inj h ▸ .dateTime _
  obtain hinteger | ⟨-, h⟩ := Option.or_eq_some_iff.1 h
  · obtain ⟨n, rfl, hn⟩ := integerOfWord?_eq_some hinteger
    exact .integer hn
  obtain hreal | ⟨-, hspecial⟩ := Option.or_eq_some_iff.1 h
  · obtain ⟨x, rfl⟩ := decimalOfWord?_eq_some hreal
    exact .real x
  · obtain ⟨x, rfl⟩ := specialOfWord?_eq_some hspecial
    exact .real x

theorem isWord_of_word? {chars rest : List Char} (h : word? chars = some (value, rest)) :
    IsWord value := by
  have hword {word more : List Char} (h : (ofWord? word).map (·, more) = some (value, rest)) :
      IsWord value := by
    obtain ⟨found, hfound, heq⟩ := Option.map_eq_some_iff.1 h
    obtain ⟨rfl, -⟩ := Prod.mk.inj heq
    exact isWord_of_ofWord? hfound
  unfold word? at h
  dsimp only at h
  split at h
  · split at h
    · exact hword h
    · exact hword h
  · exact hword h

/-- A value that is read is an array of values, a table between braces, a text or a word. -/
theorem value?_cases {fuel depth : Nat} {chars rest : List Char}
    (h : value? (fuel + 1) depth chars = some (value, rest)) :
    (∃ items more last, items? fuel (depth - 1) more = some (items, last) ∧
        value = .array items) ∨
      (∃ assignments entries, (assignments = [] ∨ ∃ more last,
          assignments? fuel (depth - 1) more = some (assignments, last)) ∧
        assignAll? [] assignments = some entries ∧ value = .table .inline entries) ∨
      (∃ text, value = .string text) ∨ IsWord value := by
  unfold value? at h
  split at h
  · obtain ⟨-, -, h⟩ := Option.bind_eq_some_iff.1 h
    obtain ⟨⟨items, last⟩, hitems, h⟩ := Option.bind_eq_some_iff.1 h
    obtain ⟨rfl, -⟩ := Prod.mk.inj (Option.some.inj h)
    exact .inl ⟨items, _, last, hitems, rfl⟩
  · obtain ⟨-, -, h⟩ := Option.bind_eq_some_iff.1 h
    dsimp only at h
    split at h
    · rw [Option.bind_eq_bind, Option.bind_some] at h
      obtain ⟨entries, hentries, h⟩ := Option.bind_eq_some_iff.1 h
      obtain ⟨rfl, -⟩ := Prod.mk.inj (Option.some.inj h)
      exact .inr (.inl ⟨[], entries, .inl rfl, hentries, rfl⟩)
    · obtain ⟨⟨assignments, last⟩, hread, h⟩ := Option.bind_eq_some_iff.1 h
      obtain ⟨entries, hentries, h⟩ := Option.bind_eq_some_iff.1 h
      obtain ⟨rfl, -⟩ := Prod.mk.inj (Option.some.inj h)
      exact .inr (.inl ⟨assignments, entries, .inr ⟨_, _, hread⟩, hentries, rfl⟩)
  · obtain ⟨⟨text, last⟩, -, h⟩ := Option.bind_eq_some_iff.1 h
    obtain ⟨rfl, -⟩ := Prod.mk.inj (Option.some.inj h)
    exact .inr (.inr (.inl ⟨_, rfl⟩))
  · obtain ⟨⟨text, last⟩, -, h⟩ := Option.bind_eq_some_iff.1 h
    obtain ⟨rfl, -⟩ := Prod.mk.inj (Option.some.inj h)
    exact .inr (.inr (.inl ⟨_, rfl⟩))
  · exact .inr (.inr (.inr (isWord_of_word? h)))

theorem isPlain_of_value? {fuel depth : Nat} {chars rest : List Char}
    (h : value? fuel depth chars = some (value, rest)) : value.isPlain = true := by
  cases fuel with
  | zero => cases h
  | succ fuel =>
    obtain ⟨-, -, -, -, rfl⟩ | ⟨-, -, -, -, rfl⟩ | ⟨-, rfl⟩ | hword := value?_cases h
    · rfl
    · rfl
    · rfl
    · cases hword <;> rfl

theorem IsWord.fits (h : IsWord value) : Fits value := by
  cases h with
  | bool b => exact .bool b
  | dateTime text => exact .dateTime text
  | integer h => exact .integer h
  | real x => exact .real x

mutual

theorem fits_of_value? : ∀ (fuel : Nat) {depth : Nat} {chars rest : List Char} {value : Toml},
    value? fuel depth chars = some (value, rest) → Fits value
  | 0, _, _, _, _ => nofun
  | fuel + 1, _, _, _, _ => fun h ↦ by
    obtain ⟨items, more, last, hitems, rfl⟩ | ⟨assignments, entries, hread, hentries, rfl⟩ |
      ⟨text, rfl⟩ | hword := value?_cases h
    · exact .array (fits_of_items? fuel hitems)
    · refine .table (allFit_nil.assignAll? ?_ hentries)
      obtain rfl | ⟨more, last, hmore⟩ := hread
      · exact fun _ hmem ↦ absurd hmem List.not_mem_nil
      · exact fits_of_assignments? fuel hmore
    · exact .string text
    · exact hword.fits

theorem fits_of_items? : ∀ (fuel : Nat) {depth : Nat} {chars rest : List Char} {items : List Toml},
    items? fuel depth chars = some (items, rest) → ∀ item ∈ items, Fits item
  | 0, _, _, _, _ => nofun
  | fuel + 1, _, _, _, _ => fun h ↦ by
    rw [items?] at h
    split at h
    · obtain ⟨rfl, -⟩ := Prod.mk.inj (Option.some.inj h)
      exact fun _ hmem ↦ absurd hmem List.not_mem_nil
    · obtain ⟨⟨item, last⟩, hitem, h⟩ := Option.bind_eq_some_iff.1 h
      dsimp only at h
      split at h
      · obtain ⟨rfl, -⟩ := Prod.mk.inj (Option.some.inj h)
        exact List.forall_mem_singleton.2 (fits_of_value? fuel hitem)
      · obtain ⟨⟨items, more⟩, hitems, h⟩ := Option.bind_eq_some_iff.1 h
        obtain ⟨rfl, -⟩ := Prod.mk.inj (Option.some.inj h)
        exact List.forall_mem_cons.2 ⟨fits_of_value? fuel hitem, fits_of_items? fuel hitems⟩
      · cases h

theorem fits_of_assignments? : ∀ (fuel : Nat) {depth : Nat} {chars rest : List Char}
    {assignments : List (Key × Toml)}, assignments? fuel depth chars = some (assignments, rest) →
      ∀ assignment ∈ assignments, Fits assignment.2
  | 0, _, _, _, _ => nofun
  | fuel + 1, _, _, _, _ => fun h ↦ by
    rw [assignments?] at h
    obtain ⟨⟨key, last⟩, -, h⟩ := Option.bind_eq_some_iff.1 h
    obtain ⟨more, -, h⟩ := Option.bind_eq_some_iff.1 h
    obtain ⟨⟨value, last⟩, hvalue, h⟩ := Option.bind_eq_some_iff.1 h
    dsimp only at h
    split at h
    · obtain ⟨rfl, -⟩ := Prod.mk.inj (Option.some.inj h)
      exact List.forall_mem_singleton.2 (fits_of_value? fuel hvalue)
    · obtain ⟨⟨assignments, more⟩, hmore, h⟩ := Option.bind_eq_some_iff.1 h
      obtain ⟨rfl, -⟩ := Prod.mk.inj (Option.some.inj h)
      exact List.forall_mem_cons.2 ⟨fits_of_value? fuel hvalue, fits_of_assignments? fuel hmore⟩
    · cases h

end

/-! ## Texts -/

theorem exists_value?_of_statement? {chars rest : List Char} {key : Key}
    (h : statement? chars = some (.assignment key value, rest)) :
    ∃ fuel depth more last, value? fuel depth more = some (value, last) := by
  unfold statement? at h
  split at h
  · obtain ⟨⟨other, more⟩, -, h⟩ := Option.bind_eq_some_iff.1 h
    obtain ⟨last, -, h⟩ := Option.bind_eq_some_iff.1 h
    cases h
  · obtain ⟨⟨other, more⟩, -, h⟩ := Option.bind_eq_some_iff.1 h
    obtain ⟨last, -, h⟩ := Option.bind_eq_some_iff.1 h
    cases h
  · split at h
    · cases h
    · obtain ⟨⟨other, more⟩, -, h⟩ := Option.bind_eq_some_iff.1 h
      obtain ⟨after, -, h⟩ := Option.bind_eq_some_iff.1 h
      obtain ⟨⟨found, last⟩, hvalue, h⟩ := Option.bind_eq_some_iff.1 h
      obtain ⟨final, -, h⟩ := Option.bind_eq_some_iff.1 h
      cases h
      exact ⟨_, _, _, _, hvalue⟩

/-- The value of an assignment is read from a part of the text. -/
theorem exists_value?_of_mem_statements? {chars : List Char} {statements : List Statement}
    (h : statements? chars = some statements) {key : Key}
    (hmem : .assignment key value ∈ statements) :
    ∃ fuel depth more last, value? fuel depth more = some (value, last) := by
  unfold statements? at h
  generalize chars.length = fuel at h
  induction fuel generalizing chars statements with
  | zero =>
    cases chars with
    | nil => cases h; exact absurd hmem List.not_mem_nil
    | cons c rest => cases h
  | succ fuel ih =>
    cases chars with
    | nil => cases h; exact absurd hmem List.not_mem_nil
    | cons c rest =>
      obtain ⟨⟨statement, more⟩, hstatement, h⟩ := Option.bind_eq_some_iff.1 h
      obtain ⟨others, hothers, h⟩ := Option.bind_eq_some_iff.1 h
      cases h
      obtain rfl | hmem := List.mem_cons.1 hmem
      · exact exists_value?_of_statement? hstatement
      · exact ih hmem hothers

/-- All integers of a text that is read fit in 64 bits with a sign. -/
theorem allFit_of_parse? {text : List Char} (h : parse? text = some entries) : AllFit entries := by
  obtain ⟨statements, hstatements, hentries⟩ := Option.bind_eq_some_iff.1 h
  refine allFit_of_ofStatements? (fun key value hmem ↦ ?_) hentries
  obtain ⟨fuel, depth, more, last, hvalue⟩ := exists_value?_of_mem_statements? hstatements hmem
  exact fits_of_value? fuel hvalue

end NotebookTree.Toml
