import Mathlib
import NotebookTree.Proofs.Notebook.Metadata
import NotebookTree.Proofs.Yaml.Keys

/-!
# Metadata of a text

The metadata of a Markdown text is a YAML document. `Prose.readMetadata_of_toJson?` says which
frontmatter a mapping becomes. A frontmatter has names as keys: keys with the same name share one
entry, at the place of the first of them and with the value of the last one. So there is one entry
for each entry of the mapping if and only if their names are different.
-/

namespace NotebookTree

namespace Json.Object

theorem get?_append (entries more : Json.Object) (key : String) :
    get? (entries ++ more) key = (get? entries key).or (get? more key) := by
  rw [get?, get?, get?, List.find?_append, Option.map_or]

/-- The field that is set last counts. -/
theorem get?_insertAll_eq_reverse (entries fields : Json.Object) (key : String) :
    get? (insertAll entries fields) key = (get? fields.reverse key).or (get? entries key) := by
  induction fields generalizing entries with
  | nil => rfl
  | cons field rest ih =>
    obtain ⟨name, value⟩ := field
    rw [insertAll_cons, ih, List.reverse_cons, get?_append, Option.or_assoc]
    by_cases h : name = key
    · subst h
      rw [get?_insert_self]
      simp [get?]
    · rw [get?_insert_of_ne (Ne.symm h)]
      simp [get?, h]

theorem nodup_keys_insertAll {entries : Json.Object} (distinct : (entries.map (·.1)).Nodup)
    (fields : Json.Object) : ((insertAll entries fields).map (·.1)).Nodup := by
  induction fields generalizing entries with
  | nil => exact distinct
  | cons field rest ih => exact ih (nodup_keys_insert field.1 field.2 distinct)

/-- Fields with different names are all kept. -/
theorem insertAll_nil_eq_iff (fields : Json.Object) :
    insertAll [] fields = fields ↔ (fields.map (·.1)).Nodup := by
  constructor
  · intro h
    have hnodup := nodup_keys_insertAll Frontmatter.empty.distinct fields
    rwa [Frontmatter.empty, h] at hnodup
  · intro h
    exact insertAll_eq_append h (by simp)

end Json.Object

namespace Frontmatter

/-- Fields that are set one after the other may be set again. -/
theorem entries_ofObject_insertAll (fields : Json.Object) :
    (ofObject (Json.Object.insertAll [] fields)).entries = Json.Object.insertAll [] fields := by
  rw [ofObject, entries_insertAll]
  exact (Json.Object.insertAll_nil_eq_iff _).2
    (Json.Object.nodup_keys_insertAll empty.distinct fields)

end Frontmatter

namespace Prose

variable {text : List Char} {value : Yaml} {json : Json}

theorem readMetadata_mapping {entries : List (Yaml × Yaml)}
    (hparse : Yaml.parse? text = some (.mapping entries))
    (hjson : (Yaml.mapping entries).toJson? = some json) :
    ∃ fields frontmatter, Yaml.AreFields entries fields ∧
      readMetadata text = .ok frontmatter ∧
      frontmatter.entries = Json.Object.insertAll [] fields := by
  obtain ⟨fields, hfields, rfl⟩ := Yaml.toJson?_mapping_eq_some_iff.1 hjson
  refine ⟨fields, _, hfields, ?_, Frontmatter.entries_ofObject_insertAll fields⟩
  rw [readMetadata, hparse]
  dsimp only
  rw [hjson]

/-- A value without a tag is an object only if it is a mapping. -/
theorem toJson?_ne_object (hmapping : ∀ entries, value ≠ .mapping entries)
    (htagged : ∀ tag inner, value ≠ .tagged tag inner) (fields : Json.Object) :
    value.toJson? ≠ some (.object fields) := by
  cases value with
  | mapping entries => exact absurd rfl (hmapping entries)
  | tagged tag inner => exact absurd rfl (htagged tag inner)
  | sequence items => simp [Yaml.toJson?, Option.bind_eq_some_iff]
  | real x =>
    rw [Yaml.toJson?]
    split <;> simp
  | _ => simp [Yaml.toJson?, Json.int]

theorem readMetadata_not_mapping (hparse : Yaml.parse? text = some value)
    (hjson : value.toJson? = some json) (hmapping : ∀ entries, value ≠ .mapping entries)
    (htagged : ∀ tag inner, value ≠ .tagged tag inner) : readMetadata text = .ok .empty := by
  rw [readMetadata, hparse]
  dsimp only
  rw [hjson]
  cases json with
  | object fields => exact absurd hjson (toJson?_ne_object hmapping htagged fields)
  | _ => rfl

/-! ## Documents of two entries -/

theorem parse?_eq_some {tokens : List Yaml.Token} {tree : Yaml.Tree}
    (hread : Yaml.Token.readAll? text = some tokens)
    (htree : Yaml.Tree.ofTokens? tokens = some (some tree))
    (hvalue : Yaml.ofTree? tree = some value) : Yaml.parse? text = some value := by
  simp only [Yaml.parse?, Option.bind_eq_bind, hread, Option.bind_some, htree, hvalue]

/-- A scalar without marks. -/
def plainTree (text : String) (plain : Bool) : Yaml.Tree := .scalar ⟨none, none⟩ text plain

theorem ofTree?_mapping_pair {k v k' v' : String} {p q p' q' : Bool} {key value key' value' : Yaml}
    (hkey : Yaml.scalarValue? none k p = some key)
    (hvalue : Yaml.scalarValue? none v q = some value)
    (hkey' : Yaml.scalarValue? none k' p' = some key')
    (hvalue' : Yaml.scalarValue? none v' q' = some value') (hne : (key == key') = false) :
    Yaml.ofTree? (.mapping ⟨none, none⟩
      [(plainTree k p, plainTree v q), (plainTree k' p', plainTree v' q')]) =
        some (.mapping [(key, value), (key', value')]) := by
  simp [Yaml.ofTree?, Yaml.Linked.ofTree?, Yaml.Linked.ofEntries?, Yaml.Linked.number, plainTree,
    Yaml.Linked.value?, Yaml.Linked.entryValues?, Yaml.Linked.follow?, Yaml.maxDepth, Yaml.withTag,
    Yaml.ownTag?, hkey, hvalue, hkey', hvalue', hne]

/-! ## Documents that are read -/

/-- A document that is read and that has a JSON value. If it is a mapping without a tag its keys
become names, and the frontmatter has each name once, at its first place and with its last value.
It has the entries of the mapping one to one if and only if no two keys have the same name, as is
so for keys that are all strings and for keys that are all integers and truth values. Any other
document without a tag contributes nothing. -/
theorem readMetadata_of_toJson? (hparse : Yaml.parse? text = some value)
    (hjson : value.toJson? = some json) :
    (∀ entries, value = .mapping entries → ∃ fields frontmatter,
      Yaml.AreFields entries fields ∧
      readMetadata text = .ok frontmatter ∧
      frontmatter.keys = (fields.map (·.1)).eraseDups ∧
      (∀ key, frontmatter.get? key = Json.Object.get? fields.reverse key) ∧
      (frontmatter.entries = fields ↔ (fields.map (·.1)).Nodup) ∧
      (Yaml.OneKind (entries.map (·.1)) → frontmatter.entries = fields)) ∧
    ((∀ entries, value ≠ .mapping entries) → (∀ tag inner, value ≠ .tagged tag inner) →
      readMetadata text = .ok .empty) := by
  constructor
  · rintro entries rfl
    obtain ⟨fields, frontmatter, hfields, hread, hentries⟩ := readMetadata_mapping hparse hjson
    have hkept : frontmatter.entries = fields ↔ (fields.map (·.1)).Nodup := by
      rw [hentries, Json.Object.insertAll_nil_eq_iff]
    refine ⟨fields, frontmatter, hfields, hread, ?_, ?_, hkept, ?_⟩
    · rw [Frontmatter.keys, hentries]
      exact Json.Object.keys_insertAll Frontmatter.empty.distinct fields
    · intro key
      rw [Frontmatter.get?, hentries, Json.Object.get?_insertAll_eq_reverse]
      exact Option.or_none
    · intro hkeys
      exact hkept.2 ((Yaml.distinctKeys_of_parse? hparse).nodup_names hfields hkeys)
  · exact readMetadata_not_mapping hparse hjson

/-- Two keys that are strings. -/
theorem readMetadata_of_toJson?_strings :
    ∃ frontmatter, readMetadata "'a': true\n'b': false".toList = .ok frontmatter ∧
      frontmatter.entries = [("a", .bool true), ("b", .bool false)] := by
  have hread : Yaml.Token.readAll? "'a': true\n'b': false".toList =
      some [.blockMappingStart, .key, .scalar "a" false, .value, .scalar "true" true, .key,
        .scalar "b" false, .value, .scalar "false" true, .blockEnd] := by cbv
  have hparse : Yaml.parse? "'a': true\n'b': false".toList =
      some (.mapping [(.string "a", .bool true), (.string "b", .bool false)]) :=
    parse?_eq_some hread rfl (ofTree?_mapping_pair rfl rfl rfl rfl rfl)
  obtain ⟨fields, frontmatter, hfields, hok, -, -, -, hkept⟩ :=
    (readMetadata_of_toJson? hparse rfl).1 _ rfl
  refine ⟨frontmatter, hok, ?_⟩
  rw [hkept (.strings (by simp))]
  exact hfields.unique (.cons ⟨rfl, rfl⟩ (.cons ⟨rfl, rfl⟩ .nil))

/-- The key `true` and the string `true` have the same name, and the first value is lost. A tagged
sequence becomes an entry. -/
theorem readMetadata_not_one_entry_each :
    (∃ entries frontmatter,
      Yaml.parse? "true: true\n'true': false".toList = some (.mapping entries) ∧
      (Yaml.mapping entries).toJson?.isSome ∧
      readMetadata "true: true\n'true': false".toList = .ok frontmatter ∧
      entries.length = 2 ∧ frontmatter.entries = [("true", .bool false)]) ∧
    ∃ frontmatter, Yaml.parse? "!t []".toList = some (.tagged "t" (.sequence [])) ∧
      readMetadata "!t []".toList = .ok frontmatter ∧
      frontmatter.entries = [("!t", .array [])] := by
  have hread : Yaml.Token.readAll? "true: true\n'true': false".toList =
      some [.blockMappingStart, .key, .scalar "true" true, .value, .scalar "true" true, .key,
        .scalar "true" false, .value, .scalar "false" true, .blockEnd] := by cbv
  have hparse : Yaml.parse? "true: true\n'true': false".toList =
      some (.mapping [(.bool true, .bool true), (.string "true", .bool false)]) :=
    parse?_eq_some hread rfl (ofTree?_mapping_pair rfl rfl rfl rfl rfl)
  obtain ⟨fields, frontmatter, hfields, hok, hentries⟩ := readMetadata_mapping hparse rfl
  have hpair : fields = [("true", .bool true), ("true", .bool false)] :=
    hfields.unique (.cons ⟨rfl, rfl⟩ (.cons ⟨rfl, rfl⟩ .nil))
  rw [hpair] at hentries
  have htagged : Yaml.parse? "!t []".toList = some (.tagged "t" (.sequence [])) := by cbv
  refine ⟨⟨_, frontmatter, hparse, rfl, hok, rfl, hentries⟩, .ofObject [("!t", .array [])],
    htagged, ?_, rfl⟩
  rw [readMetadata, htagged]
  rfl

end Prose

end NotebookTree
