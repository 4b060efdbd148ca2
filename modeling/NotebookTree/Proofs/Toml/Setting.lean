import NotebookTree.Toml.Document

/-!
# What a TOML text sets

A key of a table at the outermost level is set in one of three ways: under the header of the table,
before the first header with the name of the table and a dot, or between the braces of the table.
`Toml.Sets` says so of the statements of a text, without regard to their order.
`Toml.lookup_under_iff_sets` says that these are the values that the table of the text has.
-/

namespace NotebookTree.Toml

/-! ## Entries -/

namespace Entries

theorem lookup_cons (key other : String) (value : Toml) (entries : Entries) :
    List.lookup other ((key, value) :: entries) =
      if other = key then some value else entries.lookup other := by
  rw [List.lookup_cons]
  by_cases h : other = key
  · rw [if_pos h, beq_iff_eq.2 h]
  · rw [if_neg h, beq_eq_false_iff_ne.2 h]

theorem lookup_set (entries : Entries) (key other : String) (value : Toml) :
    (entries.set key value).lookup other =
      if other = key then some value else entries.lookup other := by
  induction entries with
  | nil => exact lookup_cons key other value []
  | cons entry rest ih =>
    obtain ⟨k, v⟩ := entry
    unfold set
    by_cases hk : k = key
    · rw [if_pos hk, lookup_cons, lookup_cons, hk]
      split <;> rfl
    · rw [if_neg hk, lookup_cons, lookup_cons, ih]
      by_cases hother : other = k
      · rw [if_pos hother, if_pos hother, if_neg (hother ▸ hk)]
      · rw [if_neg hother, if_neg hother]

theorem lookup_append_singleton {entries : Entries} {key : String} (h : entries.lookup key = none)
    (other : String) (value : Toml) :
    (entries ++ [(key, value)]).lookup other =
      if other = key then some value else entries.lookup other := by
  rw [List.lookup_append, lookup_cons]
  by_cases hother : other = key
  · rw [if_pos hother, if_pos hother, hother, h]
    rfl
  · rw [if_neg hother, if_neg hother]
    exact Option.or_none

theorem lookup_append_singleton_eq_some_iff {entries : Entries} {key other : String}
    {value found : Toml} (h : entries.lookup key = none) :
    (entries ++ [(key, value)]).lookup other = some found ↔
      entries.lookup other = some found ∨ key = other ∧ value = found := by
  rw [lookup_append_singleton h]
  by_cases hother : other = key
  · subst hother
    simp [h]
  · simp [hother, Ne.symm hother]

end Entries

/-- The entries of a table. No other value has entries. -/
def inner : Toml → Entries
  | .table _ entries => entries
  | _ => []

/-- The entries of the table of a name, none if there is no such table. -/
def Entries.under (entries : Entries) (name : String) : Entries :=
  ((entries.lookup name).map inner).getD []

/-- Is it a value to which nothing can be added? Only a table that does not stand between braces
and an array of tables can grow. -/
def isPlain : Toml → Bool
  | .table origin _ => origin == .inline
  | .tables _ => false
  | _ => true

/-- Is a key new, or the place of a value that can grow? -/
def Entries.IsOpen (entries : Entries) (key : String) : Prop :=
  ∀ value, entries.lookup key = some value → value.isPlain = false

/-- Do entries have the same plain values? -/
def Agree (entries others : Entries) : Prop :=
  ∀ key value, value.isPlain = true →
    (others.lookup key = some value ↔ entries.lookup key = some value)

theorem agree_of_lookup_eq {entries others : Entries} {key : String} {value : Toml}
    (hopen : entries.IsOpen key) (hvalue : value.isPlain = false)
    (h : ∀ other, others.lookup other =
      if other = key then some value else entries.lookup other) : Agree entries others := by
  intro other found hfound
  rw [h other]
  by_cases hother : other = key
  · subst hother
    rw [if_pos rfl]
    constructor
    · intro heq
      rw [Option.some.inj heq] at hvalue
      exact absurd hfound (by simp [hvalue])
    · intro heq
      exact absurd hfound (by simp [hopen found heq])
  · rw [if_neg hother]

/-! ## Paths -/

variable {dotted : Bool} {change : Origin → Entries → Option Entries} {origin : Origin}
  {key table : String} {path : List String} {value : Toml} {entries changed : Entries}

/-- A change at a path is one below the first key of the path, which is the place of a table or an
array of tables before and after it. -/
theorem within?_cons (h : within? dotted change origin (key :: path) entries = some changed) :
    (∃ o below, within? dotted change o path (entries.under key) = some below ∧
        changed = entries.set key (.table o below) ∧ o ≠ .inline ∧ entries.IsOpen key) ∨
      ∃ items more, entries.lookup key = some (.tables items) ∧
        changed = entries.set key (.tables more) := by
  unfold within? at h
  split at h
  · next hnone =>
    obtain ⟨below, hbelow, hset⟩ := Option.bind_eq_some_iff.1 h
    refine .inl ⟨_, below, ?_, (Option.some.inj hset).symm, ?_, by simp [Entries.IsOpen, hnone]⟩
    · rw [Entries.under, hnone]
      exact hbelow
    · split <;> decide
  · next o found hfound =>
    split at h
    · cases h
    · next hnot =>
      have ho : o ≠ .inline := fun heq ↦ hnot (by simp [heq])
      obtain ⟨below, hbelow, hset⟩ := Option.bind_eq_some_iff.1 h
      refine .inl ⟨o, below, ?_, (Option.some.inj hset).symm, ho, fun value hvalue ↦ ?_⟩
      · rw [Entries.under, hfound]
        exact hbelow
      · obtain rfl := Option.some.inj (hfound.symm.trans hvalue)
        simpa [isPlain] using ho
  · next items hitems =>
    obtain ⟨last, -, hset⟩ := Option.bind_eq_some_iff.1 h
    exact .inr ⟨items, _, hitems, (Option.some.inj hset).symm⟩
  · cases h

theorem agree_of_within?
    (h : within? dotted change origin (key :: path) entries = some changed) :
    Agree entries changed := by
  obtain ⟨o, below, -, rfl, ho, hopen⟩ | ⟨items, more, hitems, rfl⟩ := within?_cons h
  · exact agree_of_lookup_eq hopen (by simpa [isPlain] using ho)
      (Entries.lookup_set entries key · _)
  · refine agree_of_lookup_eq (fun value hvalue ↦ ?_) rfl (Entries.lookup_set entries key · _)
    obtain rfl := Option.some.inj (hitems.symm.trans hvalue)
    rfl

namespace Entries

theorem under_of_lookup_eq {others : Entries}
    (h : ∀ other, others.lookup other = if other = key then some value else entries.lookup other)
    (table : String) :
    others.under table = if table = key then inner value else entries.under table := by
  rw [under, h table]
  by_cases htable : table = key
  · rw [if_pos htable, if_pos htable]
    rfl
  · rw [if_neg htable, if_neg htable]
    rfl

theorem under_set (entries : Entries) (key table : String) (value : Toml) :
    (entries.set key value).under table =
      if table = key then inner value else entries.under table :=
  under_of_lookup_eq (lookup_set entries key · value) table

end Entries

/-- A change at a path is seen below the first key of the path alone. -/
theorem under_of_within? (h : within? dotted change origin (key :: path) entries = some changed)
    (table : String) :
    changed.under table = entries.under table ∨
      table = key ∧ ∃ o, within? dotted change o path (entries.under key) =
        some (changed.under key) := by
  obtain ⟨o, below, hbelow, rfl, -⟩ | ⟨items, more, hitems, rfl⟩ := within?_cons h
  · rw [Entries.under_set, Entries.under_set, if_pos rfl]
    by_cases htable : table = key
    · exact .inr ⟨htable, o, hbelow⟩
    · exact .inl (if_neg htable)
  · left
    rw [Entries.under_set]
    by_cases htable : table = key
    · rw [if_pos htable, htable, Entries.under, hitems]
      rfl
    · exact if_neg htable

/-! ## Assignments -/

/-- The change that an assignment makes in the table of its key. -/
def assignTo? (key : Key) (value : Toml) (origin : Origin) (entries : Entries) : Option Entries :=
  if (!key.parents.isEmpty && origin != .dotted) || (entries.lookup key.name).isSome then none
  else some (entries ++ [(key.name, value)])

theorem assign?_eq (entries : Entries) (key : Key) (value : Toml) :
    assign? entries key value =
      within? true (assignTo? key value) .header key.parents entries := rfl

theorem assignTo?_eq_some {key : Key}
    (h : assignTo? key value origin entries = some changed) :
    entries.lookup key.name = none ∧ changed = entries ++ [(key.name, value)] := by
  unfold assignTo? at h
  split at h
  · cases h
  · next hnot =>
    rw [Bool.or_eq_true, not_or, Bool.not_eq_true, Bool.not_eq_true, Option.isSome_eq_false_iff,
      Option.isNone_iff_eq_none] at hnot
    exact ⟨hnot.2, (Option.some.inj h).symm⟩

theorem assign?_eq_some {name : String} (h : assign? entries ⟨[], name⟩ value = some changed) :
    entries.lookup name = none ∧ changed = entries ++ [(name, value)] := by
  have hassign : assignTo? ⟨[], name⟩ value .header entries = some changed := h
  exact assignTo?_eq_some hassign

/-- An assignment adds its value, if its key has one part. With more parts it only makes tables. -/
theorem lookup_of_assign? {key : Key} (h : assign? entries key value = some changed)
    {found : Toml} (hfound : found.isPlain = true) (name : String) :
    changed.lookup name = some found ↔
      entries.lookup name = some found ∨ key = ⟨[], name⟩ ∧ value = found := by
  obtain ⟨parents, last⟩ := key
  cases parents with
  | nil =>
    obtain ⟨hnew, rfl⟩ := assign?_eq_some h
    simp [Entries.lookup_append_singleton_eq_some_iff hnew]
  | cons parent path =>
    rw [assign?_eq] at h
    rw [agree_of_within? h name found hfound]
    simp

theorem lookup_of_assignAll? {assignments : List (Key × Toml)}
    (h : assignAll? entries assignments = some changed)
    {found : Toml} (hfound : found.isPlain = true) (name : String) :
    changed.lookup name = some found ↔
      entries.lookup name = some found ∨ (⟨[], name⟩, found) ∈ assignments := by
  induction assignments generalizing entries with
  | nil =>
    obtain rfl := Option.some.inj h
    simp
  | cons assignment rest ih =>
    obtain ⟨next, hnext, hrest⟩ := Option.bind_eq_some_iff.1 h
    have hfirst : (⟨[], name⟩, found) = assignment ↔
        assignment.1 = ⟨[], name⟩ ∧ assignment.2 = found := by rw [eq_comm, Prod.ext_iff]
    rw [ih hrest, lookup_of_assign? hnext hfound, or_assoc, List.mem_cons, hfirst]

/-- Are there no arrays of tables? -/
def HasNoTables (entries : Entries) : Prop :=
  ∀ key items, entries.lookup key ≠ some (.tables items)

theorem HasNoTables.of_lookup_eq {others : Entries} (hentries : HasNoTables entries)
    (hvalue : ∀ items, value ≠ .tables items)
    (h : ∀ other, others.lookup other =
      if other = key then some value else entries.lookup other) : HasNoTables others := by
  intro other items heq
  rw [h other] at heq
  split at heq
  · exact hvalue items (Option.some.inj heq)
  · exact hentries other items heq

theorem HasNoTables.assign? {key : Key} (hentries : HasNoTables entries)
    (hvalue : value.isPlain = true) (h : assign? entries key value = some changed) :
    HasNoTables changed := by
  have hnot : ∀ items, value ≠ .tables items := by
    rintro items rfl
    cases hvalue
  obtain ⟨parents, last⟩ := key
  cases parents with
  | nil =>
    obtain ⟨hnew, rfl⟩ := assign?_eq_some h
    exact hentries.of_lookup_eq hnot (Entries.lookup_append_singleton hnew · value)
  | cons parent path =>
    rw [assign?_eq] at h
    obtain ⟨o, below, -, rfl, -⟩ | ⟨items, more, hitems, -⟩ := within?_cons h
    · exact hentries.of_lookup_eq (fun _ ↦ Toml.noConfusion) (Entries.lookup_set entries parent · _)
    · exact absurd hitems (hentries parent items)

/-- What an assignment sets in a table of the outermost level. -/
theorem under_of_assign? {key : Key} (hentries : HasNoTables entries)
    (h : assign? entries key value = some changed) {found : Toml} (hfound : found.isPlain = true)
    (table name : String) :
    (changed.under table).lookup name = some found ↔
      (entries.under table).lookup name = some found ∨ key = ⟨[table], name⟩ ∧ value = found ∨
        key = ⟨[], table⟩ ∧ (inner value).lookup name = some found := by
  obtain ⟨parents, last⟩ := key
  cases parents with
  | nil =>
    obtain ⟨hnew, rfl⟩ := assign?_eq_some h
    rw [Entries.under_of_lookup_eq (Entries.lookup_append_singleton hnew · value)]
    by_cases htable : table = last
    · subst htable
      have hnone : entries.under table = [] := by
        rw [Entries.under, hnew]
        rfl
      simp [hnone]
    · simp [htable, Ne.symm htable]
  | cons parent path =>
    rw [assign?_eq] at h
    obtain ⟨o, below, hbelow, rfl, -⟩ | ⟨items, more, hitems, -⟩ := within?_cons h
    · rw [Entries.under_set]
      by_cases htable : table = parent
      · subst htable
        rw [if_pos rfl]
        cases path with
        | nil =>
          obtain ⟨hnew, rfl⟩ := assignTo?_eq_some hbelow
          simp [inner, Entries.lookup_append_singleton_eq_some_iff hnew]
        | cons second more =>
          rw [inner, agree_of_within? hbelow name found hfound]
          simp
      · simp [htable, Ne.symm htable]
    · exact absurd hitems (hentries parent items)

/-- Does an assignment before the first header set a key of a table? -/
def SetsHere (assignments : List (Key × Toml)) (table name : String) (value : Toml) : Prop :=
  (⟨[table], name⟩, value) ∈ assignments ∨
    ∃ whole, (⟨[], table⟩, whole) ∈ assignments ∧ (inner whole).lookup name = some value

theorem setsHere_cons_iff {assignment : Key × Toml} {assignments : List (Key × Toml)}
    {table name : String} {value : Toml} :
    SetsHere (assignment :: assignments) table name value ↔
      (assignment.1 = ⟨[table], name⟩ ∧ assignment.2 = value ∨
        assignment.1 = ⟨[], table⟩ ∧ (inner assignment.2).lookup name = some value) ∨
      SetsHere assignments table name value := by
  obtain ⟨key, whole⟩ := assignment
  unfold SetsHere
  simp only [List.mem_cons, Prod.mk.injEq]
  constructor
  · rintro ((⟨rfl, rfl⟩ | hmem) | ⟨found, ⟨rfl, rfl⟩ | hmem, hfound⟩)
    · exact .inl (.inl ⟨rfl, rfl⟩)
    · exact .inr (.inl hmem)
    · exact .inl (.inr ⟨rfl, hfound⟩)
    · exact .inr (.inr ⟨found, hmem, hfound⟩)
  · rintro ((⟨rfl, rfl⟩ | ⟨rfl, hfound⟩) | (hmem | ⟨found, hmem, hfound⟩))
    · exact .inl (.inl ⟨rfl, rfl⟩)
    · exact .inr ⟨whole, .inl ⟨rfl, rfl⟩, hfound⟩
    · exact .inl (.inr hmem)
    · exact .inr ⟨found, .inr hmem, hfound⟩

theorem under_of_assignAll? {assignments : List (Key × Toml)} (hentries : HasNoTables entries)
    (hvalues : ∀ assignment ∈ assignments, assignment.2.isPlain = true)
    (h : assignAll? entries assignments = some changed) {found : Toml}
    (hfound : found.isPlain = true) (table name : String) :
    (changed.under table).lookup name = some found ↔
      (entries.under table).lookup name = some found ∨
        SetsHere assignments table name found := by
  induction assignments generalizing entries with
  | nil =>
    obtain rfl := Option.some.inj h
    simp [SetsHere]
  | cons assignment rest ih =>
    obtain ⟨hvalue, hrests⟩ := List.forall_mem_cons.1 hvalues
    obtain ⟨next, hnext, hrest⟩ := Option.bind_eq_some_iff.1 h
    rw [ih (hentries.assign? hvalue hnext) hrests hrest, under_of_assign? hentries hnext hfound,
      setsHere_cons_iff, or_assoc]

/-! ## Headers -/

/-- The change that a header makes in the table that its key leads to. -/
def declare? (s : Section) (_ : Origin) (entries : Entries) : Option Entries :=
  match s.isElement, entries.lookup s.key.name with
  | false, none => do
    return entries ++ [(s.key.name, .table .header (← assignAll? [] s.assignments))]
  | false, some (.table .implied found) => do
    return entries.set s.key.name (.table .header (← assignAll? found s.assignments))
  | true, none => do
    return entries ++ [(s.key.name, .tables [← assignAll? [] s.assignments])]
  | true, some (.tables items) => do
    return entries.set s.key.name (.tables (items ++ [← assignAll? [] s.assignments]))
  | _, _ => none

theorem addSection?_eq (root : Entries) (s : Section) :
    addSection? root s = within? false (declare? s) .header s.key.parents root := rfl

theorem addSection?_name (root : Entries) (name : String) (isElement : Bool)
    (assignments : List (Key × Toml)) :
    addSection? root ⟨⟨[], name⟩, isElement, assignments⟩ =
      declare? ⟨⟨[], name⟩, isElement, assignments⟩ .header root := rfl

/-- A header makes a table of what is there with the assignments under it, or an array of tables, in
which nothing has a place of its own. -/
theorem declare?_eq_some {s : Section} (h : declare? s origin entries = some changed) :
    ∃ value : Toml, value.isPlain = false ∧ entries.IsOpen s.key.name ∧
      (∀ other, changed.lookup other =
        if other = s.key.name then some value else entries.lookup other) ∧
      (s.isElement = false ∧
          assignAll? (entries.under s.key.name) s.assignments = some (inner value) ∨
        s.isElement = true ∧ entries.under s.key.name = [] ∧ inner value = []) := by
  unfold declare? at h
  unfold Entries.IsOpen Entries.under
  split at h
  · next helement hnew =>
    obtain ⟨made, hmade, hadd⟩ := Option.bind_eq_some_iff.1 h
    obtain rfl := Option.some.inj hadd
    refine ⟨.table .header made, rfl, by simp [hnew],
      (Entries.lookup_append_singleton hnew · _), .inl ⟨helement, ?_⟩⟩
    rw [hnew]
    exact hmade
  · next found helement hfound =>
    obtain ⟨made, hmade, hset⟩ := Option.bind_eq_some_iff.1 h
    obtain rfl := Option.some.inj hset
    refine ⟨.table .header made, rfl, by simp [hfound, isPlain],
      (Entries.lookup_set entries s.key.name · _), .inl ⟨helement, ?_⟩⟩
    rw [hfound]
    exact hmade
  · next helement hnew =>
    obtain ⟨made, -, hadd⟩ := Option.bind_eq_some_iff.1 h
    obtain rfl := Option.some.inj hadd
    exact ⟨.tables [made], rfl, by simp [hnew], (Entries.lookup_append_singleton hnew · _),
      .inr ⟨helement, by rw [hnew]; rfl, rfl⟩⟩
  · next items helement hitems =>
    obtain ⟨made, -, hset⟩ := Option.bind_eq_some_iff.1 h
    obtain rfl := Option.some.inj hset
    exact ⟨.tables (items ++ [made]), rfl, by simp [hitems, isPlain],
      (Entries.lookup_set entries s.key.name · _), .inr ⟨helement, by rw [hitems]; rfl, rfl⟩⟩
  · cases h

theorem agree_of_declare? {s : Section} (h : declare? s origin entries = some changed) :
    Agree entries changed := by
  obtain ⟨value, hvalue, hopen, hlookup, -⟩ := declare?_eq_some h
  exact agree_of_lookup_eq hopen hvalue hlookup

theorem agree_of_addSections? {sections : List Section}
    (h : sections.foldlM addSection? entries = some changed) : Agree entries changed := by
  induction sections generalizing entries with
  | nil =>
    obtain rfl := Option.some.inj h
    exact fun _ _ _ ↦ Iff.rfl
  | cons s rest ih =>
    obtain ⟨next, hnext, hrest⟩ := Option.bind_eq_some_iff.1 h
    have hfirst : Agree entries next := by
      obtain ⟨⟨parents, last⟩, isElement, assignments⟩ := s
      cases parents with
      | nil =>
        rw [addSection?_name] at hnext
        exact agree_of_declare? hnext
      | cons parent path =>
        rw [addSection?_eq] at hnext
        exact agree_of_within? hnext
    exact fun key value hvalue ↦ (ih hrest key value hvalue).trans (hfirst key value hvalue)

/-- What stands under a header in a table of the outermost level. -/
theorem under_of_addSection? {s : Section} (h : addSection? entries s = some changed)
    {found : Toml} (hfound : found.isPlain = true) (table name : String) :
    (changed.under table).lookup name = some found ↔
      (entries.under table).lookup name = some found ∨
        s.key = ⟨[], table⟩ ∧ s.isElement = false ∧ (⟨[], name⟩, found) ∈ s.assignments := by
  obtain ⟨⟨parents, last⟩, isElement, assignments⟩ := s
  cases parents with
  | nil =>
    rw [addSection?_name] at h
    obtain ⟨value, -, -, hlookup, hmade⟩ := declare?_eq_some h
    rw [Entries.under_of_lookup_eq hlookup]
    by_cases htable : table = last
    · subst htable
      rw [if_pos rfl]
      obtain ⟨helement, hmade⟩ | ⟨helement, hnone, hvalue⟩ := hmade
      · rw [lookup_of_assignAll? hmade hfound]
        simp [show isElement = false from helement]
      · rw [hvalue, show entries.under table = [] from hnone]
        simp [show isElement = true from helement]
    · simp [htable, Ne.symm htable]
  | cons parent path =>
    rw [addSection?_eq] at h
    have hagree : Agree (entries.under table) (changed.under table) := by
      obtain heq | ⟨rfl, o, hbelow⟩ := under_of_within? h table
      · rw [heq]
        exact fun _ _ _ ↦ Iff.rfl
      · cases path with
        | nil => exact agree_of_declare? hbelow
        | cons second more => exact agree_of_within? hbelow
    rw [hagree name found hfound]
    simp

theorem under_of_addSections? {sections : List Section}
    (h : sections.foldlM addSection? entries = some changed) {found : Toml}
    (hfound : found.isPlain = true) (table name : String) :
    (changed.under table).lookup name = some found ↔
      (entries.under table).lookup name = some found ∨
        ∃ s ∈ sections, s.key = ⟨[], table⟩ ∧ s.isElement = false ∧
          (⟨[], name⟩, found) ∈ s.assignments := by
  induction sections generalizing entries with
  | nil =>
    obtain rfl := Option.some.inj h
    simp
  | cons s rest ih =>
    obtain ⟨next, hnext, hrest⟩ := Option.bind_eq_some_iff.1 h
    rw [ih hrest, under_of_addSection? hnext hfound, or_assoc]
    simp only [List.mem_cons, or_and_right, exists_or, exists_eq_left]

/-! ## Texts -/

/-- Do statements set a key of a table of the outermost level? -/
inductive Sets (statements : List Statement) (table name : String) (value : Toml) : Prop
  /-- The key stands under the header of the table. -/
  | header {s : Section} (hs : s ∈ (sections statements).2) (hkey : s.key = ⟨[], table⟩)
      (htable : s.isElement = false) (hmem : (⟨[], name⟩, value) ∈ s.assignments)
  /-- The key follows the name of the table and a dot, before the first header. -/
  | dotted (hmem : (⟨[table], name⟩, value) ∈ (sections statements).1)
  /-- The key stands between the braces of the table, before the first header. -/
  | inline {whole : Toml} (hmem : (⟨[], table⟩, whole) ∈ (sections statements).1)
      (hkey : (inner whole).lookup name = some value)

theorem assignment_mem_of_mem_sections {statements : List Statement} {key : Key} {value : Toml}
    (h : (key, value) ∈ (sections statements).1) : .assignment key value ∈ statements := by
  induction statements with
  | nil => exact absurd h List.not_mem_nil
  | cons statement rest ih =>
    cases statement with
    | blank => exact List.mem_cons_of_mem _ (ih h)
    | header other => exact absurd h List.not_mem_nil
    | elementHeader other => exact absurd h List.not_mem_nil
    | assignment other found =>
      obtain hfirst | hrest := List.mem_cons.1 h
      · obtain ⟨rfl, rfl⟩ := Prod.mk.inj hfirst
        exact List.mem_cons_self
      · exact List.mem_cons_of_mem _ (ih hrest)

theorem assignment_mem_of_mem_section {statements : List Statement} {s : Section}
    (hs : s ∈ (sections statements).2) {key : Key} {value : Toml}
    (h : (key, value) ∈ s.assignments) : .assignment key value ∈ statements := by
  induction statements with
  | nil => exact absurd hs List.not_mem_nil
  | cons statement rest ih =>
    cases statement with
    | blank => exact List.mem_cons_of_mem _ (ih hs)
    | assignment other found => exact List.mem_cons_of_mem _ (ih hs)
    | header other | elementHeader other =>
      obtain rfl | hs := List.mem_cons.1 hs
      · exact List.mem_cons_of_mem _ (assignment_mem_of_mem_sections h)
      · exact List.mem_cons_of_mem _ (ih hs)

/-- The plain values in the tables of the outermost level are those that the statements set, in
whichever order and way. -/
theorem lookup_under_iff_sets {statements : List Statement}
    (hvalues : ∀ key value, .assignment key value ∈ statements → value.isPlain = true)
    (h : ofStatements? statements = some entries) (table name : String) {value : Toml}
    (hvalue : value.isPlain = true) :
    (entries.under table).lookup name = some value ↔ Sets statements table name value := by
  obtain ⟨first, hfirst, hmore⟩ := Option.bind_eq_some_iff.1 h
  have hplain : ∀ assignment ∈ (sections statements).1, assignment.2.isPlain = true :=
    fun assignment hmem ↦ hvalues _ _ (assignment_mem_of_mem_sections hmem)
  have hnone : HasNoTables [] := nofun
  rw [under_of_addSections? hmore hvalue, under_of_assignAll? hnone hplain hfirst hvalue]
  constructor
  · rintro ((hstart | hdotted | ⟨whole, hmem, hkey⟩) | ⟨s, hs, hkey, htable, hmem⟩)
    · cases hstart
    · exact .dotted hdotted
    · exact .inline hmem hkey
    · exact .header hs hkey htable hmem
  · rintro (⟨hs, hkey, htable, hmem⟩ | hdotted | ⟨hmem, hkey⟩)
    · exact .inr ⟨_, hs, hkey, htable, hmem⟩
    · exact .inl (.inr (.inl hdotted))
    · exact .inl (.inr (.inr ⟨_, hmem, hkey⟩))

/-- What statements set is there. -/
theorem lookup_under_of_sets {statements : List Statement}
    (hvalues : ∀ key value, .assignment key value ∈ statements → value.isPlain = true)
    (h : ofStatements? statements = some entries) {table name : String} {value : Toml}
    (hsets : Sets statements table name value) :
    (entries.under table).lookup name = some value := by
  cases hsets with
  | header hs hkey htable hmem =>
    rw [lookup_under_iff_sets hvalues h _ _
      (hvalues _ _ (assignment_mem_of_mem_section hs hmem))]
    exact .header hs hkey htable hmem
  | dotted hmem =>
    rw [lookup_under_iff_sets hvalues h _ _ (hvalues _ _ (assignment_mem_of_mem_sections hmem))]
    exact .dotted hmem
  | @inline whole hmem hkey =>
    -- Nothing is added to a table between braces, so it is still there as it was written.
    have hwhole : whole.isPlain = true := hvalues _ _ (assignment_mem_of_mem_sections hmem)
    obtain ⟨first, hfirst, hmore⟩ := Option.bind_eq_some_iff.1 h
    have hthere : entries.lookup table = some whole :=
      (agree_of_addSections? hmore table whole hwhole).2
        ((lookup_of_assignAll? hfirst hwhole table).2 (.inr hmem))
    rw [Entries.under, hthere]
    exact hkey

end NotebookTree.Toml
