import NotebookTree.Content
import NotebookTree.Proofs.Json.Reading

/-!
# Records as JSON

The JSON text of a record is read back as the metadata without the names of the record's own fields,
followed by these fields: `Record.parse?_text`. A JSON text that is the contents of a source is
passed on as it is: `Content.parse_string_text`.
-/

namespace NotebookTree

/-! ## Trees -/

namespace Node

theorem isExact_attributesJson (attributes : Attributes) :
    (attributesJson attributes).isExact = true := by
  have hkeys : (attributes.entries.map fun entry ↦ (entry.1, Json.string entry.2)).map (·.1) =
      attributes.entries.map (·.1) := by
    rw [List.map_map]
    rfl
  have hdistinct : (attributes.entries.map (·.1)).Nodup := by
    rw [List.Nodup, List.pairwise_map]
    refine attributes.sorted.imp ?_
    intro first second hlt heq
    rw [heq] at hlt
    exact String.lt_irrefl _ hlt
  rw [attributesJson, Json.isExact, Bool.and_eq_true, decide_eq_true_eq, hkeys, Json.haveExact_iff]
  refine ⟨hdistinct, fun entry hmem ↦ ?_⟩
  obtain ⟨written, -, rfl⟩ := List.mem_map.1 hmem
  rfl

mutual

/-- The JSON form of a node has no doubles and repeats no key. -/
theorem isExact_toJson : ∀ node : Node, node.toJson.isExact = true
  | root nodes => by
    simp [toJson, Json.isExact, Json.haveExact, areExact_listJson nodes]
  | element tag attributes nodes => by
    simp [toJson, Json.isExact, Json.haveExact, areExact_listJson nodes,
      isExact_attributesJson attributes]
  | text value => by
    simp [toJson, Json.isExact, Json.haveExact]

theorem areExact_listJson : ∀ nodes : List Node, Json.areExact (listJson nodes) = true
  | [] => rfl
  | node :: rest => by
    rw [listJson, Json.areExact, isExact_toJson node, areExact_listJson rest]
    rfl

end

end Node

namespace Record

/-! ## Fields -/

/-- The metadata that stands beside the fields of a record. -/
def keptMetadata (r : Record) : Json.Object :=
  r.frontmatter.entries.filter fun entry ↦ !reservedKeys.contains entry.1

theorem nodup_keys_entries (r : Record) : (r.entries.map (·.1)).Nodup := by
  have hkept : (r.keptMetadata.map (·.1)).Nodup :=
    r.frontmatter.distinct.sublist (List.filter_sublist.map _)
  have hfields : (r.entries.map (·.1)) = r.keptMetadata.map (·.1) ++ reservedKeys := by
    rw [entries, List.map_append]
    rfl
  rw [hfields, List.nodup_append]
  refine ⟨hkept, by decide, ?_⟩
  rintro key hkey other hother rfl
  obtain ⟨entry, hentry, rfl⟩ := List.mem_map.1 hkey
  have hnot := (List.mem_filter.1 hentry).2
  rw [List.contains_eq_mem, decide_eq_true hother] at hnot
  exact Bool.false_ne_true hnot

theorem isExact_toJson {r : Record}
    (hmetadata : ∀ entry ∈ r.frontmatter.entries, entry.2.isExact = true)
    (hbody : r.body.toJson.isExact = true) : r.toJson.isExact = true := by
  rw [toJson, Json.isExact, Bool.and_eq_true, decide_eq_true_eq, Json.haveExact_iff]
  refine ⟨r.nodup_keys_entries, fun entry hmem ↦ ?_⟩
  rcases List.mem_append.1 hmem with hkept | hfield
  · exact hmetadata entry (List.mem_filter.1 hkept).1
  · simp only [List.mem_cons, List.not_mem_nil, or_false] at hfield
    rcases hfield with rfl | rfl | rfl
    · rfl
    · rfl
    · exact hbody

theorem contentType_name (r : Record) :
    r.body.contentType.name = if r.tree?.isSome then "markdown" else "json" := by
  obtain ⟨id, body, frontmatter⟩ := r
  cases body <;> rfl

/-- Metadata can take no field of a record away and repeats none: both texts of a record are read
back as the metadata with other names, in order and with its values, and then the three fields. -/
theorem parse?_text (r : Record)
    (hmetadata : ∀ entry ∈ r.frontmatter.entries, entry.2.isExact = true)
    (hbody : ∀ value, r.body = .json value → value.isExact = true)
    (hdepth : r.toJson.depth ≤ Json.maxDepth) :
    ∃ entries : Json.Object,
      Json.parse? r.toJson.compact = some (.object entries) ∧
      Json.parse? r.toJson.pretty = some (.object entries) ∧
      entries = r.frontmatter.entries.filter (fun entry ↦ entry.1 ∉ ["id", "type", "body"]) ++
        [("id", .string r.id), ("type", .string (if r.tree?.isSome then "markdown" else "json")),
          ("body", r.body.toJson)] ∧
      (entries.map (·.1)).Nodup := by
  have hbody' : r.body.toJson.isExact = true := by
    cases hkind : r.body with
    | json value => exact hbody value hkind
    | tree root => exact Node.isExact_toJson root
  have hexact := isExact_toJson hmetadata hbody'
  have hfilter : r.keptMetadata =
      r.frontmatter.entries.filter fun entry ↦ entry.1 ∉ ["id", "type", "body"] := by
    refine List.filter_congr fun entry _ ↦ ?_
    rw [List.contains_eq_mem, decide_not]
    rfl
  refine ⟨r.entries, Json.parse?_compact hexact hdepth, Json.parse?_pretty hexact hdepth, ?_,
    r.nodup_keys_entries⟩
  rw [entries, contentType_name, ← hfilter]
  rfl

/-- A record whose metadata has the names of all its fields. -/
def spoofed : Record :=
  ofTree "nb" (.root [.element "p" (.ofList [("class", "a")]) [.text "\u0001\"\n"]])
    (.ofObject [("id", .int 1), ("title", .array [.int (-7), .string "é\\"]), ("type", .null),
      ("body", .object [("a", .bool true)])])

theorem parse?_text_spoofed : ∃ entries : Json.Object,
    Json.parse? spoofed.toJson.compact = some (.object entries) ∧
    Json.parse? spoofed.toJson.pretty = some (.object entries) ∧
    entries.map (·.1) = ["title", "id", "type", "body"] := by
  have hmetadata : ∀ entry ∈ spoofed.frontmatter.entries, entry.2.isExact = true := by
    rw [← Json.haveExact_iff]
    decide +kernel
  have hdepth : spoofed.toJson.depth ≤ Json.maxDepth := by decide +kernel
  obtain ⟨entries, hcompact, hpretty, hentries, -⟩ :=
    parse?_text spoofed hmetadata (fun _ h ↦ Body.noConfusion h) hdepth
  refine ⟨entries, hcompact, hpretty, ?_⟩
  rw [hentries]
  decide +kernel

end Record

/-! ## Texts that are passed on -/

namespace Content

/-- A JSON text that is no null is passed on, whatever it looks like. -/
theorem parse_string_eq (options : CompileOptions) (id : String) {text : String} {value : Json}
    (htext : Json.parse? text = some value) (hvalue : value ≠ .null) :
    parse options id (some (.string text)) = .ofJson id value := by
  have hclassify : classify (some (.string text)) = .json value := by
    rw [classify, htext]
    cases value with
    | null => exact absurd rfl hvalue
    | _ => rfl
  rw [parse, hclassify]

theorem compact_ofJson (id : String) (value : Json) :
    (Record.ofJson id value).toJson.compact =
      "\x7b\"id\":" ++ (Json.string id).compact ++ ",\"type\":\"json\",\"body\":" ++ value.compact ++
        "\x7d" := by
  have hstart : '\x7b' :: Json.stringChars "id" ++ [':'] = "\x7b\"id\":".toList := by decide
  have hmiddle : ',' :: Json.stringChars "type" ++ ':' :: Json.compactChars (.string "json") ++
      ',' :: Json.stringChars "body" ++ [':'] = ",\"type\":\"json\",\"body\":".toList := by decide
  have hentries : (Record.ofJson id value).entries =
      [("id", .string id), ("type", .string "json"), ("body", value)] := rfl
  have hchars : Json.compactChars (Record.ofJson id value).toJson =
      "\x7b\"id\":".toList ++ Json.compactChars (.string id) ++
        ",\"type\":\"json\",\"body\":".toList ++ Json.compactChars value ++ "\x7d".toList := by
    rw [Record.toJson, hentries, ← hstart, ← hmiddle]
    simp [Json.compactChars, Json.compactEntries]
  rw [Json.compact, hchars]
  simp only [String.ofList_append, String.ofList_toList, Json.compact]

/-- Contents that are the JSON text of a value without doubles, on one line or indented, are passed
on as that value, be it a notebook or not, and are written again as they were. -/
theorem parse_string_text (options : CompileOptions) (id : String) {value : Json}
    (hvalue : value ≠ .null) (hexact : value.isExact = true) (hdepth : value.depth ≤ Json.maxDepth)
    {text : String} (htext : text = value.compact ∨ text = value.pretty) :
    parse options id (some (.string text)) = ⟨id, .json value, .empty⟩ ∧
    (parse options id (some (.string text))).toJson.compact =
      "\x7b\"id\":" ++ (Json.string id).compact ++ ",\"type\":\"json\",\"body\":" ++ value.compact ++
        "\x7d" := by
  have hread : Json.parse? text = some value := by
    rcases htext with rfl | rfl
    · exact Json.parse?_compact hexact hdepth
    · exact Json.parse?_pretty hexact hdepth
  have hparse := parse_string_eq options id hread hvalue
  rw [hparse]
  exact ⟨rfl, compact_ofJson id value⟩

/-- A value that looks like a notebook, with the greatest and the least integer. -/
def notebookLike : Json :=
  .object [("cells", .array [.object [("cell_type", .string "markdown"),
    ("source", .string "\u001f/\"é")]]), ("most", .int 18446744073709551615),
    ("least", .int (-9223372036854775808))]

theorem parse_string_text_notebookLike :
    notebookLike ≠ .null ∧ notebookLike.isExact = true ∧ notebookLike.depth ≤ Json.maxDepth ∧
    parse {} "nb" (some (.string notebookLike.pretty)) = ⟨"nb", .json notebookLike, .empty⟩ ∧
    (parse {} "nb" (some (.string notebookLike.pretty))).toJson.compact =
      "\x7b\"id\":" ++ (Json.string "nb").compact ++ ",\"type\":\"json\",\"body\":" ++
        notebookLike.compact ++ "\x7d" := by
  have hvalue : notebookLike ≠ .null := fun h ↦ Json.noConfusion h
  have hexact : notebookLike.isExact = true := by decide +kernel
  have hdepth : notebookLike.depth ≤ Json.maxDepth := by decide +kernel
  exact ⟨hvalue, hexact, hdepth, parse_string_text {} "nb" hvalue hexact hdepth (.inr rfl)⟩

end Content

end NotebookTree
