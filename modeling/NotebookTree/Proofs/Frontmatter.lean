import NotebookTree.Frontmatter

/-!
# Merging metadata

Frontmatter is an ordered map under `Frontmatter.merge`, in which the merged values count and a key
keeps its first place. Merging is associative, with the empty map as identity on both sides. All
three are equalities of ordered maps, so they speak of the places of the keys as well.
-/

namespace NotebookTree

namespace Json.Object

theorem insert_insert_self (key : String) (value before : Json) (entries : Json.Object) :
    insert key value (insert key before entries) = insert key value entries := by
  induction entries with
  | nil => simp [insert]
  | cons entry rest ih =>
    obtain ⟨k, v⟩ := entry
    by_cases h : k = key
    · simp [insert, h]
    · simp [insert, h, ih]

/-- Setting a key that has its place already does not depend on what is set besides. -/
theorem insert_insert_comm {key other : String} {entries : Json.Object} (value value' : Json)
    (hne : other ≠ key) (hmem : key ∈ entries.map (·.1)) :
    insert key value (insert other value' entries) =
      insert other value' (insert key value entries) := by
  induction entries with
  | nil => simp at hmem
  | cons entry rest ih =>
    obtain ⟨k, v⟩ := entry
    by_cases hkey : k = key
    · have hother : ¬key = other := fun h ↦ hne h.symm
      simp [insert, hkey, hother]
    · by_cases hother : k = other
      · simp [insert, hother, hne]
      · have hrest : key ∈ rest.map (·.1) := by
          rcases List.mem_cons.1 hmem with h | h
          · exact absurd h.symm hkey
          · exact h
        simp [insert, hkey, hother, ih hrest]

theorem insertAll_cons (entries more : Json.Object) (key : String) (value : Json) :
    insertAll entries ((key, value) :: more) = insertAll (insert key value entries) more := rfl

theorem mem_keys_insert (key : String) (value : Json) (entries : Json.Object) :
    key ∈ (insert key value entries).map (·.1) := by
  rw [keys_insert]
  split
  · assumption
  · simp

theorem mem_keys_insert_of_mem {key : String} {entries : Json.Object} (other : String)
    (value : Json) (h : key ∈ entries.map (·.1)) :
    key ∈ (insert other value entries).map (·.1) := by
  rw [keys_insert]
  split
  · exact h
  · exact List.mem_append_left _ h

/-- A key that has its place already may be set before or after others. -/
theorem insert_insertAll_comm {key : String} {entries more : Json.Object} (value : Json)
    (hmem : key ∈ entries.map (·.1)) (habsent : key ∉ more.map (·.1)) :
    insert key value (insertAll entries more) = insertAll (insert key value entries) more := by
  induction more generalizing entries with
  | nil => rfl
  | cons entry rest ih =>
    obtain ⟨k, v⟩ := entry
    simp only [List.map_cons, List.mem_cons, not_or] at habsent
    rw [insertAll_cons, insertAll_cons, ih (mem_keys_insert_of_mem k v hmem) habsent.2,
      insert_insert_comm value v (Ne.symm habsent.1) hmem]

/-- Inserting entries and then one more is inserting them with that one set. -/
theorem insertAll_insert (key : String) (value : Json) (entries : Json.Object)
    {more : Json.Object} (distinct : (more.map (·.1)).Nodup) :
    insertAll entries (insert key value more) = insert key value (insertAll entries more) := by
  induction more generalizing entries with
  | nil => rfl
  | cons entry rest ih =>
    obtain ⟨k, v⟩ := entry
    rw [List.map_cons, List.nodup_cons] at distinct
    by_cases h : k = key
    · subst h
      have hplace := mem_keys_insert k v entries
      calc
        insertAll entries (insert k value ((k, v) :: rest)) =
            insertAll (insert k value entries) rest := by simp [insert, insertAll_cons]
        _ = insertAll (insert k value (insert k v entries)) rest := by rw [insert_insert_self]
        _ = insert k value (insertAll (insert k v entries) rest) :=
          (insert_insertAll_comm value hplace distinct.1).symm
        _ = insert k value (insertAll entries ((k, v) :: rest)) := rfl
    · have hinsert : insert key value ((k, v) :: rest) = (k, v) :: insert key value rest := by
        simp [insert, h]
      rw [hinsert, insertAll_cons, insertAll_cons, ih _ distinct.2]

theorem insertAll_insertAll (entries more : Json.Object) {last : Json.Object}
    (distinct : (more.map (·.1)).Nodup) :
    insertAll (insertAll entries more) last = insertAll entries (insertAll more last) := by
  induction last generalizing more with
  | nil => rfl
  | cons entry rest ih =>
    obtain ⟨k, v⟩ := entry
    rw [insertAll_cons, insertAll_cons, ← insertAll_insert k v entries distinct]
    exact ih _ (nodup_keys_insert k v distinct)

theorem insert_of_not_mem {key : String} {entries : Json.Object} (value : Json)
    (h : key ∉ entries.map (·.1)) : insert key value entries = entries ++ [(key, value)] := by
  induction entries with
  | nil => rfl
  | cons entry rest ih =>
    obtain ⟨k, v⟩ := entry
    simp only [List.map_cons, List.mem_cons, not_or] at h
    simp [insert, Ne.symm h.1, ih h.2]

/-- New keys are added at the end, in order. -/
theorem insertAll_eq_append {entries more : Json.Object} (distinct : (more.map (·.1)).Nodup)
    (habsent : ∀ key ∈ more.map (·.1), key ∉ entries.map (·.1)) :
    insertAll entries more = entries ++ more := by
  induction more generalizing entries with
  | nil => simp [insertAll]
  | cons entry rest ih =>
    obtain ⟨k, v⟩ := entry
    rw [List.map_cons, List.nodup_cons] at distinct
    have hk : k ∉ entries.map (·.1) := habsent k (by simp)
    have hinsert : insert k v entries = entries ++ [(k, v)] := insert_of_not_mem v hk
    rw [insertAll_cons, hinsert, ih distinct.2, List.append_assoc, List.singleton_append]
    intro key hkey hmem
    rw [List.map_append, List.mem_append] at hmem
    rcases hmem with hmem | hmem
    · exact habsent key (List.mem_cons_of_mem _ hkey) hmem
    · simp only [List.map_cons, List.map_nil, List.mem_singleton] at hmem
      exact distinct.1 (hmem ▸ hkey)

theorem get?_insert_self (key : String) (value : Json) (entries : Json.Object) :
    get? (insert key value entries) key = some value := by
  induction entries with
  | nil => simp [insert, get?]
  | cons entry rest ih =>
    obtain ⟨k, v⟩ := entry
    by_cases hkey : k = key
    · simp [insert, get?, hkey]
    · simpa [insert, get?, hkey] using ih

theorem get?_insert_of_ne {key other : String} (h : other ≠ key) (value : Json)
    (entries : Json.Object) :
    get? (insert key value entries) other = get? entries other := by
  induction entries with
  | nil => simp [insert, get?, Ne.symm h]
  | cons entry rest ih =>
    obtain ⟨k, v⟩ := entry
    by_cases hkey : k = key
    · simp [insert, get?, hkey, Ne.symm h]
    · by_cases hother : k = other
      · simp [insert, get?, hother, h]
      · simpa [insert, get?, hkey, hother] using ih

end Json.Object

namespace Frontmatter

theorem ext {f g : Frontmatter} (h : f.entries = g.entries) : f = g := by
  cases f
  cases g
  congr

theorem entries_insertAll (f : Frontmatter) (entries : Json.Object) :
    (f.insertAll entries).entries = Json.Object.insertAll f.entries entries := by
  induction entries generalizing f with
  | nil => rfl
  | cons entry rest ih => exact ih (f.insert entry.1 entry.2)

theorem entries_merge (f g : Frontmatter) :
    (f.merge g).entries = Json.Object.insertAll f.entries g.entries :=
  entries_insertAll f g.entries

theorem merge_assoc (f g h : Frontmatter) : (f.merge g).merge h = f.merge (g.merge h) := by
  apply ext
  simp only [entries_merge]
  exact Json.Object.insertAll_insertAll f.entries g.entries g.distinct

theorem merge_empty (f : Frontmatter) : f.merge empty = f := rfl

theorem empty_merge (f : Frontmatter) : empty.merge f = f := by
  apply ext
  rw [entries_merge]
  exact Json.Object.insertAll_eq_append f.distinct (by simp [empty])

end Frontmatter

end NotebookTree
