/-!
# Attributes of an element

The attributes of an element are a finite map from names to values. It is kept as a list of
entries in strictly increasing order of their names, so equal maps are equal lists, and the order
in which attributes are written does not depend on the order in which they were set.
-/

namespace NotebookTree

/-- Sets the value of a name in a sorted list of entries. -/
def Attributes.insertEntry (name value : String) :
    List (String × String) → List (String × String)
  | [] => [(name, value)]
  | (n, v) :: rest =>
    if name < n then (name, value) :: (n, v) :: rest
    else if n < name then (n, v) :: insertEntry name value rest
    else (n, value) :: rest

/-- A bound on the names survives an insertion that keeps it. -/
theorem Attributes.forall_lt_insertEntry {least name value : String}
    {entries : List (String × String)} (hname : least < name)
    (hall : ∀ entry ∈ entries, least < entry.1) :
    ∀ entry ∈ insertEntry name value entries, least < entry.1 := by
  induction entries with
  | nil => simpa [insertEntry] using hname
  | cons head rest ih =>
    obtain ⟨n, v⟩ := head
    simp only [List.mem_cons, forall_eq_or_imp] at hall
    unfold insertEntry
    split
    · simp only [List.mem_cons, forall_eq_or_imp]
      exact ⟨hname, hall.1, hall.2⟩
    · split
      · simp only [List.mem_cons, forall_eq_or_imp]
        exact ⟨hall.1, ih hall.2⟩
      · simp only [List.mem_cons, forall_eq_or_imp]
        exact ⟨hall.1, hall.2⟩

/-- Insertion keeps the entries sorted. -/
theorem Attributes.pairwise_insertEntry (name value : String) {entries : List (String × String)}
    (sorted : entries.Pairwise (·.1 < ·.1)) :
    (insertEntry name value entries).Pairwise (·.1 < ·.1) := by
  induction entries with
  | nil => simp [insertEntry]
  | cons head rest ih =>
    obtain ⟨n, v⟩ := head
    rw [List.pairwise_cons] at sorted
    unfold insertEntry
    split
    · next hlt =>
      rw [List.pairwise_cons, List.pairwise_cons]
      refine ⟨?_, sorted⟩
      simp only [List.mem_cons, forall_eq_or_imp]
      exact ⟨hlt, fun entry hmem ↦ String.lt_trans hlt (sorted.1 entry hmem)⟩
    · split
      · next hlt =>
        rw [List.pairwise_cons]
        exact ⟨forall_lt_insertEntry hlt sorted.1, ih sorted.2⟩
      · rw [List.pairwise_cons]
        exact ⟨sorted.1, sorted.2⟩

/-- A finite map from attribute names to values, sorted by name. -/
structure Attributes where
  entries : List (String × String)
  sorted : entries.Pairwise (·.1 < ·.1)

namespace Attributes

/-- No attributes. -/
def empty : Attributes := ⟨[], List.Pairwise.nil⟩

instance : Inhabited Attributes := ⟨empty⟩

/-- Sets one attribute. An earlier value of the name is lost. -/
def insert (attributes : Attributes) (name value : String) : Attributes :=
  ⟨insertEntry name value attributes.entries, pairwise_insertEntry name value attributes.sorted⟩

/-- Sets attributes one after the other. -/
def ofList (entries : List (String × String)) : Attributes :=
  entries.foldl (fun attributes entry ↦ attributes.insert entry.1 entry.2) empty

/-- The value of an attribute. -/
def get? (attributes : Attributes) (name : String) : Option String :=
  (attributes.entries.find? (·.1 == name)).map (·.2)

/-- An attribute has the value that it was set to last. -/
theorem get?_insert_self (attributes : Attributes) (name value : String) :
    (attributes.insert name value).get? name = some value := by
  obtain ⟨entries, sorted⟩ := attributes
  show ((insertEntry name value entries).find? (·.1 == name)).map (·.2) = some value
  clear sorted
  induction entries with
  | nil => simp [insertEntry]
  | cons head rest ih =>
    obtain ⟨n, v⟩ := head
    unfold insertEntry
    split
    · simp
    · next hnot =>
      split
      · next hlt =>
        have hne : n ≠ name := fun heq ↦ String.lt_irrefl name (heq ▸ hlt)
        rw [List.find?_cons_of_neg (by simpa using hne)]
        exact ih
      · next hnot' =>
        have heq : n = name := String.le_antisymm hnot hnot'
        simp [heq]

end Attributes

end NotebookTree
