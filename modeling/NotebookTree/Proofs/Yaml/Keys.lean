import Mathlib.Data.List.Basic
import NotebookTree.Proofs.Html.StandIn
import NotebookTree.Yaml.Document

/-!
# Keys of YAML mappings

A mapping becomes a JSON object by setting one field after the other:
`Yaml.objectJson?_eq_some_iff`. No key occurs twice in a mapping of a document, but different keys may have the same name. Keys that
are all strings have different names, and so have keys that are all integers and truth values:
`Yaml.DistinctKeys.nodup_names`.
-/

namespace NotebookTree

namespace Decimal

theorem dash_or_isDigit_of_mem_intDigits {n : Int} {c : Char} (h : c ∈ intDigits n) :
    c = '-' ∨ c.isDigit = true := by
  have hdigits {m : Nat} (hc : c ∈ natDigits m) : c.isDigit = true :=
    Nat.isDigit_of_mem_toDigits (by decide) (by decide) hc
  rw [intDigits] at h
  split at h
  · exact (List.mem_cons.1 h).imp_right hdigits
  · exact .inr (hdigits h)

theorem natDigits_injective {m n : Nat} (h : natDigits m = natDigits n) : m = n := by
  rw [← Text.ofDigits_toDigits m, ← Text.ofDigits_toDigits n]
  exact congrArg (Text.ofDigits 10) h

theorem dash_not_mem_natDigits (n : Nat) : '-' ∉ natDigits n := fun h ↦
  absurd (Nat.isDigit_of_mem_toDigits (by decide) (by decide) h) (by decide)

theorem intDigits_injective {m n : Int} (h : intDigits m = intDigits n) : m = n := by
  rw [intDigits, intDigits] at h
  split at h <;> split at h
  · have habs := natDigits_injective (List.cons.inj h).2
    omega
  · exact absurd (h ▸ List.mem_cons_self) (dash_not_mem_natDigits n.natAbs)
  · exact absurd (h ▸ List.mem_cons_self) (dash_not_mem_natDigits m.natAbs)
  · have habs := natDigits_injective h
    omega

end Decimal

namespace Yaml

variable {entries : List (Yaml × Yaml)} {fields object result : Json.Object}

/-! ## Fields -/

/-- The fields that entries become, one for each entry, in order. -/
def AreFields (entries : List (Yaml × Yaml)) (fields : Json.Object) : Prop :=
  List.Forall₂ (fun entry field ↦ entry.1.key? = some field.1 ∧ entry.2.toJson? = some field.2)
    entries fields

/-- The fields of a mapping are set one after the other. -/
theorem objectJson?_eq_some_iff :
    objectJson? object entries = some result ↔
      ∃ fields, AreFields entries fields ∧ Json.Object.insertAll object fields = result := by
  induction entries generalizing object with
  | nil =>
    rw [objectJson?, Option.some.injEq]
    constructor
    · rintro rfl
      exact ⟨[], .nil, rfl⟩
    · rintro ⟨fields, hfields, rfl⟩
      cases hfields
      rfl
  | cons entry rest ih =>
    obtain ⟨key, value⟩ := entry
    simp only [objectJson?, Option.bind_eq_bind, Option.bind_eq_some_iff, ih]
    constructor
    · rintro ⟨name, hname, json, hjson, fields, hfields, rfl⟩
      exact ⟨(name, json) :: fields, .cons ⟨hname, hjson⟩ hfields, rfl⟩
    · rintro ⟨fields, hfields, rfl⟩
      obtain _ | ⟨⟨hname, hjson⟩, hrest⟩ := hfields
      exact ⟨_, hname, _, hjson, _, hrest, rfl⟩

theorem toJson?_mapping_eq_some_iff {json : Json} :
    (mapping entries).toJson? = some json ↔
      ∃ fields, AreFields entries fields ∧ .object (Json.Object.insertAll [] fields) = json := by
  simp only [toJson?, Option.bind_eq_bind, Option.bind_eq_some_iff, objectJson?_eq_some_iff,
    Option.pure_def, Option.some.injEq]
  constructor
  · rintro ⟨result, ⟨fields, hfields, rfl⟩, rfl⟩
    exact ⟨fields, hfields, rfl⟩
  · rintro ⟨fields, hfields, rfl⟩
    exact ⟨_, ⟨fields, hfields, rfl⟩, rfl⟩

theorem AreFields.map_key? (h : AreFields entries fields) :
    entries.map (fun entry ↦ entry.1.key?) = fields.map fun field ↦ some field.1 := by
  induction h with
  | nil => rfl
  | cons hentry _ ih => rw [List.map_cons, List.map_cons, hentry.1, ih]

theorem AreFields.unique {others : Json.Object} (h : AreFields entries fields)
    (h' : AreFields entries others) : fields = others := by
  induction h generalizing others with
  | nil =>
    cases h'
    rfl
  | cons hfield _ ih =>
    obtain _ | ⟨hfield', hrest'⟩ := h'
    rw [ih hrest']
    congr 1
    exact Prod.ext (Option.some.inj (hfield.1.symm.trans hfield'.1))
      (Option.some.inj (hfield.2.symm.trans hfield'.2))

/-! ## Distinct keys -/

/-- No key occurs twice. -/
def DistinctKeys (entries : List (Yaml × Yaml)) : Prop :=
  entries.Pairwise fun a b ↦ (a.1 == b.1) = false

theorem Linked.distinctKeys_of_entryValues? {t : Targets} {depth used used' : Nat}
    {before values : List (Yaml × Yaml)} {nodes : List (Linked × Linked)}
    (hbefore : DistinctKeys before)
    (h : entryValues? t depth used before nodes = some (values, used')) : DistinctKeys values := by
  induction nodes generalizing used before with
  | nil =>
    rw [entryValues?] at h
    cases h
    exact hbefore
  | cons node rest ih =>
    rw [entryValues?] at h
    simp only [Option.bind_eq_bind, Option.bind_eq_some_iff] at h
    obtain ⟨⟨key, used⟩, -, h⟩ := h
    split at h
    · cases h
    · next hnew =>
      obtain ⟨⟨value, used⟩, -, h⟩ := Option.bind_eq_some_iff.1 h
      refine ih (List.pairwise_append.2 ⟨hbefore, List.pairwise_singleton _ _, ?_⟩) h
      intro entry hentry other hother
      rw [List.mem_singleton.1 hother]
      rw [Bool.not_eq_true, List.any_eq_false] at hnew
      exact Bool.eq_false_iff.2 (hnew entry hentry)

theorem plainValue?_ne_mapping (text : String) : plainValue? text ≠ some (mapping entries) := by
  have hnumber : number? text ≠ some (some (mapping entries)) := by
    unfold number?
    split
    · simp
    · split <;> simp
  unfold plainValue?
  split
  · simp
  · split
    · simp
    · split
      · next result hresult => rwa [hresult, ne_eq, Option.some.injEq] at hnumber
      · split
        · simp
        · split <;> simp

theorem scalarValue?_ne_mapping (tag : Option TagName) (text : String) (plain : Bool) :
    scalarValue? tag text plain ≠ some (mapping entries) := by
  have hnumber : (number? text).join ≠ some (mapping entries) := by
    unfold number?
    split
    · simp
    · split <;> simp
  unfold scalarValue?
  extract_lets isTag
  split
  · simp
  · split
    · exact hnumber
    · split
      · simp
      · split
        · split <;> simp
        · split
          · exact plainValue?_ne_mapping text
          · simp

theorem withTag_eq_mapping {tag : Option TagName} {value : Yaml}
    (h : withTag tag value = mapping entries) : value = mapping entries := by
  rw [withTag] at h
  split at h
  · cases h
  · exact h

theorem Linked.distinctKeys_of_value? {t : Targets} {depth used used' : Nat} {node : Linked}
    (h : value? t depth used node = some (.mapping entries, used')) : DistinctKeys entries := by
  rw [value?] at h
  split at h
  · cases h
  · cases h
  · obtain ⟨value, hvalue, heq⟩ := Option.map_eq_some_iff.1 h
    obtain ⟨htag, -⟩ := Prod.mk.inj heq
    rw [withTag_eq_mapping htag] at hvalue
    exact absurd hvalue (scalarValue?_ne_mapping _ _ _)
  · split at h
    · cases h
    · obtain ⟨⟨values, used⟩, -, heq⟩ := Option.bind_eq_some_iff.1 h
      obtain ⟨htag, -⟩ := Prod.mk.inj (Option.some.inj heq)
      cases withTag_eq_mapping htag
  · split at h
    · cases h
    · obtain ⟨⟨values, used⟩, hvalues, heq⟩ := Option.bind_eq_some_iff.1 h
      obtain ⟨htag, -⟩ := Prod.mk.inj (Option.some.inj heq)
      cases withTag_eq_mapping htag
      exact Linked.distinctKeys_of_entryValues? List.Pairwise.nil hvalues

theorem distinctKeys_of_parse? {text : List Char} (h : parse? text = some (mapping entries)) :
    DistinctKeys entries := by
  obtain ⟨tokens, -, h⟩ := Option.bind_eq_some_iff.1 h
  obtain ⟨tree, -, h⟩ := Option.bind_eq_some_iff.1 h
  cases tree with
  | none => cases h
  | some tree =>
    obtain ⟨⟨node, anchors⟩, -, h⟩ := Option.bind_eq_some_iff.1 h
    obtain ⟨⟨value, used⟩, hvalue, heq⟩ := Option.bind_eq_some_iff.1 h
    cases heq
    exact Linked.distinctKeys_of_value? hvalue

/-! ## Distinct names -/

/-- Keys of one kind: strings, or integers and truth values. Of other keys, two may have the same
name. -/
inductive OneKind (keys : List Yaml) : Prop where
  | strings (h : ∀ key ∈ keys, ∃ s, key = string s)
  | plain (h : ∀ key ∈ keys, (∃ n, key = integer n) ∨ ∃ b, key = bool b)

theorem key?_integer_ne_bool (n : Int) (b : Bool) : (integer n).key? ≠ (bool b).key? := by
  intro h
  have hchars := congrArg String.toList (Option.some.inj h)
  rw [String.toList_ofList] at hchars
  have hmem : (if b then 't' else 'f') ∈ Decimal.intDigits n := by
    rw [hchars]
    cases b <;> decide
  rcases Decimal.dash_or_isDigit_of_mem_intDigits hmem with hc | hc <;> cases b <;>
    exact absurd hc (by decide)

theorem key?_injective_of_oneKind {keys : List Yaml} (hkeys : OneKind keys) {a b : Yaml}
    (ha : a ∈ keys) (hb : b ∈ keys) (h : a.key? = b.key?) : (a == b) = true := by
  obtain hkeys | hkeys := hkeys
  · obtain ⟨s, rfl⟩ := hkeys a ha
    obtain ⟨t, rfl⟩ := hkeys b hb
    change (s == t) = true
    exact beq_iff_eq.2 (Option.some.inj h)
  · rcases hkeys a ha with ⟨m, rfl⟩ | ⟨p, rfl⟩ <;> rcases hkeys b hb with ⟨n, rfl⟩ | ⟨q, rfl⟩
    · change (m == n) = true
      exact beq_iff_eq.2 (Decimal.intDigits_injective (String.ofList_injective (Option.some.inj h)))
    · exact absurd h (key?_integer_ne_bool m q)
    · exact absurd h.symm (key?_integer_ne_bool n p)
    · revert h
      cases p <;> cases q <;> decide

theorem DistinctKeys.nodup_names (h : DistinctKeys entries) (hfields : AreFields entries fields)
    (hkeys : OneKind (entries.map (·.1))) : (fields.map (·.1)).Nodup := by
  have hnames : (entries.map fun entry ↦ entry.1.key?).Nodup := by
    rw [List.Nodup, List.pairwise_map]
    refine List.Pairwise.imp_of_mem ?_ h
    intro a b ha hb hne heq
    have heq' :=
      key?_injective_of_oneKind hkeys (List.mem_map_of_mem ha) (List.mem_map_of_mem hb) heq
    rw [hne] at heq'
    cases heq'
  rw [hfields.map_key?, List.Nodup, List.pairwise_map] at hnames
  rw [List.Nodup, List.pairwise_map]
  exact hnames.imp fun hne heq ↦ hne (congrArg some heq)

end Yaml

end NotebookTree
