import NotebookTree.Proofs.Notebook.Isolation

/-!
# Metadata of a notebook

The metadata of the cells is merged in order. In the result a key has the place at which it occurs
first and the value that it has last, and it does not matter how the cells are grouped:
`Frontmatter.mergeAll_orders_keys`.
-/

namespace NotebookTree

theorem eraseDups_of_nodup {keys : List String} (h : keys.Nodup) : keys.eraseDups = keys := by
  induction keys with
  | nil => exact List.eraseDups_nil
  | cons key rest ih =>
    rw [List.nodup_cons] at h
    have hrest : rest.filter (fun other ↦ !other == key) = rest := by
      rw [List.filter_eq_self]
      intro other hother
      rw [Bool.not_eq_true', beq_eq_false_iff_ne]
      exact fun heq ↦ h.1 (heq ▸ hother)
    rw [List.eraseDups_cons, hrest, ih h.2]

/-- A key that is there already adds nothing when repetitions are dropped. -/
theorem eraseDups_append_cons_of_mem {key : String} {keys : List String} (h : key ∈ keys)
    (more : List String) : (keys ++ key :: more).eraseDups = (keys ++ more).eraseDups := by
  have hremove : (key :: more).removeAll keys = more.removeAll keys := by
    rw [List.removeAll, List.filter_cons_of_neg (by simpa using h)]
    rfl
  rw [List.eraseDups_append, List.eraseDups_append, hremove]

namespace Json.Object

/-- Inserting entries one after the other leaves each key at its first place. -/
theorem keys_insertAll {entries : Json.Object} (distinct : (entries.map (·.1)).Nodup)
    (more : Json.Object) :
    (insertAll entries more).map (·.1) = (entries.map (·.1) ++ more.map (·.1)).eraseDups := by
  induction more generalizing entries with
  | nil => rw [List.map_nil, List.append_nil, eraseDups_of_nodup distinct, insertAll, List.foldl_nil]
  | cons entry rest ih =>
    obtain ⟨key, value⟩ := entry
    rw [insertAll_cons, ih (nodup_keys_insert key value distinct), keys_insert, List.map_cons]
    split
    · next hmem => exact (eraseDups_append_cons_of_mem hmem _).symm
    · rw [List.append_assoc, List.singleton_append]

/-- A key has the value that is inserted, or else the one that it had. -/
theorem get?_insertAll (entries : Json.Object) {more : Json.Object}
    (distinct : (more.map (·.1)).Nodup) (key : String) :
    get? (insertAll entries more) key = (get? more key).or (get? entries key) := by
  induction more generalizing entries with
  | nil => rfl
  | cons entry rest ih =>
    obtain ⟨k, v⟩ := entry
    rw [List.map_cons, List.nodup_cons] at distinct
    rw [insertAll_cons, ih _ distinct.2]
    by_cases hkey : k = key
    · subst hkey
      have habsent : get? rest k = none := by
        rw [get?, Option.map_eq_none_iff, List.find?_eq_none]
        intro other hother heq
        exact distinct.1 (List.mem_map.2 ⟨other, hother, beq_iff_eq.1 heq⟩)
      have hfound : get? ((k, v) :: rest) k = some v := by simp [get?]
      rw [habsent, Option.none_or, get?_insert_self, hfound, Option.some_or]
    · have hskip : get? ((k, v) :: rest) key = get? rest key := by
        rw [get?, get?, List.find?_cons_of_neg (by simpa using hkey)]
      rw [hskip, get?_insert_of_ne (Ne.symm hkey)]

end Json.Object

namespace Frontmatter

/-- Merges metadata in order. -/
def mergeAll (maps : List Frontmatter) : Frontmatter := maps.foldl merge empty

theorem foldl_merge (f : Frontmatter) (maps : List Frontmatter) :
    maps.foldl merge f = f.merge (mergeAll maps) := by
  induction maps generalizing f with
  | nil => exact (merge_empty f).symm
  | cons first rest ih =>
    rw [List.foldl_cons, ih, mergeAll, mergeAll, List.foldl_cons, empty_merge, ih first, merge_assoc]
    rfl

theorem mergeAll_cons (first : Frontmatter) (rest : List Frontmatter) :
    mergeAll (first :: rest) = first.merge (mergeAll rest) := by
  rw [mergeAll, List.foldl_cons, foldl_merge, empty_merge]

theorem mergeAll_append (maps more : List Frontmatter) :
    mergeAll (maps ++ more) = (mergeAll maps).merge (mergeAll more) := by
  rw [mergeAll, List.foldl_append, foldl_merge]
  rfl

/-- Groups may be merged first. -/
theorem mergeAll_map_mergeAll (groups : List (List Frontmatter)) :
    mergeAll (groups.map mergeAll) = mergeAll groups.flatten := by
  induction groups with
  | nil => rfl
  | cons group rest ih => rw [List.map_cons, mergeAll_cons, ih, List.flatten_cons, mergeAll_append]

theorem entries_foldl_merge (f : Frontmatter) (maps : List Frontmatter) :
    (maps.foldl merge f).entries =
      Json.Object.insertAll f.entries (maps.flatMap (·.entries)) := by
  induction maps generalizing f with
  | nil => rfl
  | cons first rest ih =>
    rw [List.foldl_cons, ih, entries_merge, List.flatMap_cons, Json.Object.insertAll,
      Json.Object.insertAll, Json.Object.insertAll, List.foldl_append]

theorem keys_mergeAll (maps : List Frontmatter) :
    (mergeAll maps).keys = (maps.flatMap keys).eraseDups := by
  rw [keys, mergeAll, entries_foldl_merge, Json.Object.keys_insertAll empty.distinct,
    List.map_flatMap]
  rfl

theorem get?_merge (f g : Frontmatter) (key : String) :
    (f.merge g).get? key = (g.get? key).or (f.get? key) := by
  rw [get?, entries_merge]
  exact Json.Object.get?_insertAll f.entries g.distinct key

theorem get?_mergeAll (maps : List Frontmatter) (key : String) :
    (mergeAll maps).get? key = maps.findSomeRev? (·.get? key) := by
  induction maps with
  | nil => rfl
  | cons first rest ih =>
    rw [mergeAll_cons, get?_merge, ih, List.findSomeRev?]
    cases rest.findSomeRev? (·.get? key) <;> rfl

end Frontmatter

theorem Notebook.frontmatter_walk (options : CompileOptions) (cells : List Cell) :
    (walk options ⟨cells⟩).frontmatter =
      Frontmatter.mergeAll (cells.map fun cell ↦ (cell.render options).2) := by
  induction cells with
  | nil => rfl
  | cons cell rest ih =>
    rw [← List.singleton_append, frontmatter_walk_append, walk_singleton, ih, List.singleton_append,
      List.map_cons, Frontmatter.mergeAll_cons]

theorem Notebook.frontmatter_walk_flatten (options : CompileOptions) (groups : List (List Cell)) :
    (walk options ⟨groups.flatten⟩).frontmatter =
      Frontmatter.mergeAll (groups.map fun cells ↦ (walk options ⟨cells⟩).frontmatter) := by
  have hgroups : groups.map (fun cells ↦ (walk options ⟨cells⟩).frontmatter) =
      (groups.map (List.map fun cell ↦ (cell.render options).2)).map Frontmatter.mergeAll := by
    rw [List.map_map]
    exact List.map_congr_left fun cells _ ↦ frontmatter_walk options cells
  rw [hgroups, Frontmatter.mergeAll_map_mergeAll, ← List.map_flatten, frontmatter_walk]

/-- Metadata that is merged in order, as that of the cells of a notebook is, has each key once, at
its first place and with its last value. Merging is associative and has an identity, so maps and
cells may be grouped. -/
theorem Frontmatter.mergeAll_orders_keys (maps : List Frontmatter) :
    (mergeAll maps).keys.Nodup ∧
    (mergeAll maps).keys = (maps.flatMap keys).eraseDups ∧
    (∀ key, (mergeAll maps).get? key = maps.findSomeRev? (·.get? key)) ∧
    (∀ f g h : Frontmatter, (f.merge g).merge h = f.merge (g.merge h)) ∧
    (∀ f : Frontmatter, f.merge empty = f ∧ empty.merge f = f) ∧
    (∀ groups : List (List Frontmatter), mergeAll (groups.map mergeAll) = mergeAll groups.flatten) ∧
    ∀ (options : CompileOptions) (cells : List Cell) (groups : List (List Cell)),
      (Notebook.walk options ⟨cells⟩).frontmatter =
        mergeAll (cells.map fun cell ↦ (cell.render options).2) ∧
      (Notebook.walk options ⟨groups.flatten⟩).frontmatter =
        mergeAll (groups.map fun cells ↦ (Notebook.walk options ⟨cells⟩).frontmatter) :=
  ⟨(mergeAll maps).distinct, keys_mergeAll maps, get?_mergeAll maps, merge_assoc,
    fun f ↦ ⟨merge_empty f, empty_merge f⟩, mergeAll_map_mergeAll, fun options cells groups ↦
    ⟨Notebook.frontmatter_walk options cells, Notebook.frontmatter_walk_flatten options groups⟩⟩

end NotebookTree
