import NotebookTree.Json.Basic

/-!
# Frontmatter

The metadata of a document: an ordered map of JSON values in which each key occurs once. Merging
sets the entries of another map one after the other, so a key keeps its first place and has its
last value.
-/

namespace NotebookTree

namespace Json.Object

/-- Setting a key leaves the keys of an object as they are, or adds the new key at the end. -/
theorem keys_insert (key : String) (value : Json) (entries : Json.Object) :
    (insert key value entries).map (·.1) =
      if key ∈ entries.map (·.1) then entries.map (·.1) else entries.map (·.1) ++ [key] := by
  induction entries with
  | nil => simp [insert]
  | cons entry rest ih =>
    obtain ⟨k, v⟩ := entry
    by_cases h : k = key
    · simp [insert, h]
    · have h' : key ≠ k := fun e ↦ h e.symm
      simp only [insert, beq_iff_eq, h, if_false, List.map_cons, ih, List.mem_cons, h', false_or]
      split <;> simp

/-- Setting a key keeps the keys of an object distinct. -/
theorem nodup_keys_insert {entries : Json.Object} (key : String) (value : Json)
    (distinct : (entries.map (·.1)).Nodup) : ((insert key value entries).map (·.1)).Nodup := by
  rw [keys_insert]
  split
  · exact distinct
  · next absent =>
    rw [List.nodup_append]
    refine ⟨distinct, by simp, ?_⟩
    intro a ha b hb e
    simp only [List.mem_singleton] at hb
    exact absent (hb ▸ e ▸ ha)

end Json.Object

/-- An ordered map of metadata. -/
structure Frontmatter where
  entries : Json.Object
  distinct : (entries.map (·.1)).Nodup

namespace Frontmatter

/-- No metadata. -/
def empty : Frontmatter := ⟨[], List.nodup_nil⟩

instance : Inhabited Frontmatter := ⟨empty⟩

/-- Sets the value of a key. -/
def insert (f : Frontmatter) (key : String) (value : Json) : Frontmatter :=
  ⟨Json.Object.insert key value f.entries, Json.Object.nodup_keys_insert key value f.distinct⟩

/-- Sets entries one after the other. -/
def insertAll (f : Frontmatter) (entries : Json.Object) : Frontmatter :=
  entries.foldl (fun f entry ↦ f.insert entry.1 entry.2) f

/-- The metadata of a JSON object. -/
def ofObject (entries : Json.Object) : Frontmatter := empty.insertAll entries

/-- Merges other metadata, whose values count. -/
def merge (f other : Frontmatter) : Frontmatter := f.insertAll other.entries

/-- The value of a key. -/
def get? (f : Frontmatter) (key : String) : Option Json := Json.Object.get? f.entries key

/-- The number of keys. -/
def size (f : Frontmatter) : Nat := f.entries.length

/-- Are there no keys? -/
def isEmpty (f : Frontmatter) : Bool := f.entries.isEmpty

/-- The keys in order. -/
def keys (f : Frontmatter) : List String := f.entries.map (·.1)

/-- The metadata as a JSON object. -/
def toJson (f : Frontmatter) : Json := .object f.entries

end Frontmatter

end NotebookTree
