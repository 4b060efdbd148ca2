import NotebookTree.Proofs.Configuration.Store
import NotebookTree.Proofs.Toml.Value

/-!
# A configuration file over the defaults

A file overrides the default configuration field by field: `Configuration.Overrides` says that a
field takes the value that the file sets, in whichever order and way it does so, and keeps its
default value if the file does not set it. `Home.loadFrom_of_wellTyped` says that a file whose
fields have values of the right kinds is loaded as this configuration, unless a restricted value is
not allowed.
-/

namespace NotebookTree

namespace Toml

/-- A natural number as a value. -/
def ofNat (n : Nat) : Toml := integer n

/-- A table as a value. -/
def ofTable (t : Origin × Entries) : Toml := table t.1 t.2

/-- Is it a table? -/
def isTable : Toml → Bool
  | table _ _ => true
  | _ => false

/-- Is a field, if it is there, of a kind of values? -/
def IsOfKind {α : Type} (ofValue : α → Toml) (field : Option Toml) : Prop :=
  ∀ value, field = some value → ∃ x, value = ofValue x

section Kinds

variable {α : Type} {ofValue : α → Toml}

/-- A field is of a kind if it can be read as one. -/
theorem isOfKind_iff {read : Option Toml → Option α} (hnone : (read none).isSome)
    (hsome : ∀ value x, read (some value) = some x ↔ value = ofValue x) (field : Option Toml) :
    IsOfKind ofValue field ↔ (read field).isSome := by
  unfold IsOfKind
  cases field with
  | none => exact iff_of_true nofun hnone
  | some value => simp [Option.isSome_iff_exists, hsome]

theorem boolField?_some_iff (fallback : Bool) (value : Toml) (b : Bool) :
    boolField? fallback (some value) = some b ↔ value = bool b := by
  cases value <;> simp [boolField?]

theorem stringField?_some_iff (fallback : String) (value : Toml) (text : String) :
    stringField? fallback (some value) = some text ↔ value = string text := by
  cases value <;> simp [stringField?]

theorem natField?_some_iff (fallback : Nat) (value : Toml) (n : Nat) :
    natField? fallback (some value) = some n ↔ value = ofNat n := by
  cases value with
  | integer m =>
    simp only [natField?, ofNat, integer.injEq, Option.ite_none_right_eq_some, Option.some.injEq]
    omega
  | _ => simp [natField?, ofNat]

theorem isOfKind_ofTable_iff (field : Option Toml) :
    IsOfKind ofTable field ↔ ∀ value ∈ field, value.isTable = true := by
  cases field with
  | none => exact iff_of_true nofun nofun
  | some value => cases value <;> simp [IsOfKind, ofTable, isTable]

instance (field : Option Toml) : Decidable (IsOfKind ofTable field) :=
  decidable_of_iff _ (isOfKind_ofTable_iff field).symm

instance (field : Option Toml) : Decidable (IsOfKind bool field) :=
  decidable_of_iff _ (isOfKind_iff rfl (boolField?_some_iff true) field).symm

instance (field : Option Toml) : Decidable (IsOfKind string field) :=
  decidable_of_iff _ (isOfKind_iff rfl (stringField?_some_iff "") field).symm

instance (field : Option Toml) : Decidable (IsOfKind ofNat field) :=
  decidable_of_iff _ (isOfKind_iff rfl (natField?_some_iff 0) field).symm

end Kinds

/-- Is it what statements set a key of a table to, or else a default value? -/
def Gives {α : Type} (ofValue : α → Toml) (statements : List Statement) (table name : String)
    (fallback x : α) : Prop :=
  Sets statements table name (ofValue x) ∨
    (∀ value, ¬Sets statements table name value) ∧ x = fallback

section Fields

variable {α : Type} {ofValue : α → Toml} {statements : List Statement} {entries : Entries}
  {table name : String} {fallback x y : α}

theorem Gives.unique
    (hvalues : ∀ key value, .assignment key value ∈ statements → value.isPlain = true)
    (h : ofStatements? statements = some entries) (hinj : Function.Injective ofValue)
    (hx : Gives ofValue statements table name fallback x)
    (hy : Gives ofValue statements table name fallback y) : x = y := by
  obtain hx | ⟨hnone, rfl⟩ := hx
  · obtain hy | ⟨hnone, -⟩ := hy
    · have heq := (lookup_under_of_sets hvalues h hx).symm.trans (lookup_under_of_sets hvalues h hy)
      exact hinj (Option.some.inj heq)
    · exact absurd hx (hnone _)
  · obtain hy | ⟨-, rfl⟩ := hy
    · exact absurd hy (hnone _)
    · rfl

/-- A reader of fields that may be missing gives what the statements set, or else the default. -/
theorem exists_gives
    (hvalues : ∀ key value, .assignment key value ∈ statements → value.isPlain = true)
    (h : ofStatements? statements = some entries) (read : Option Toml → Option α)
    (hnone : read none = some fallback)
    (hsome : ∀ x, read (some (ofValue x)) = some x) (hplain : ∀ x, (ofValue x).isPlain = true)
    (htyped : IsOfKind ofValue ((entries.under table).lookup name)) :
    ∃ x, read ((entries.under table).lookup name) = some x ∧
      Gives ofValue statements table name fallback x := by
  cases hfield : (entries.under table).lookup name with
  | none =>
    refine ⟨fallback, hnone, .inr ⟨fun value hsets ↦ ?_, rfl⟩⟩
    rw [lookup_under_of_sets hvalues h hsets] at hfield
    cases hfield
  | some value =>
    obtain ⟨x, rfl⟩ := htyped value hfield
    exact ⟨x, hsome x, .inl ((lookup_under_iff_sets hvalues h table name (hplain x)).1 hfield)⟩

end Fields

end Toml

/-- The truth values among the options, by the names of their fields. -/
def CompileOptions.flags : List (String × (CompileOptions → Bool)) :=
  [("frontmatter", (·.frontmatter)), ("tables", (·.tables)), ("strikethrough", (·.strikethrough)),
    ("tasklists", (·.tasklists)), ("footnotes", (·.footnotes)),
    ("heading_attributes", (·.headingAttributes))]

theorem CompileOptions.eq_of_flags {o p : CompileOptions}
    (hflags : ∀ flag ∈ flags, flag.2 o = flag.2 p)
    (hdepth : o.maxNestingDepth = p.maxNestingDepth) : o = p := by
  cases o
  cases p
  simp only [flags, List.forall_mem_cons, List.not_mem_nil, false_implies, implies_true,
    and_true] at hflags
  obtain ⟨h₁, h₂, h₃, h₄, h₅, h₆⟩ := hflags
  cases h₁
  cases h₂
  cases h₃
  cases h₄
  cases h₅
  cases h₆
  cases hdepth
  rfl

namespace Configuration

open Toml

/-- Are the tables and fields of a configuration, where they are there, of the right kinds? -/
structure WellTyped (entries : Entries) : Prop where
  defaults : IsOfKind ofTable (entries.lookup "defaults")
  markdown : IsOfKind ofTable (entries.lookup "markdown")
  outputFormat : IsOfKind string ((entries.under "defaults").lookup "output_format")
  pretty : IsOfKind bool ((entries.under "defaults").lookup "pretty")
  flags : ∀ flag ∈ CompileOptions.flags, IsOfKind bool ((entries.under "markdown").lookup flag.1)
  maxNestingDepth : IsOfKind ofNat ((entries.under "markdown").lookup "max_nesting_depth")

instance (entries : Entries) : Decidable (WellTyped entries) :=
  decidable_of_iff
    (IsOfKind ofTable (entries.lookup "defaults") ∧ IsOfKind ofTable (entries.lookup "markdown") ∧
      IsOfKind string ((entries.under "defaults").lookup "output_format") ∧
      IsOfKind bool ((entries.under "defaults").lookup "pretty") ∧
      (∀ flag ∈ CompileOptions.flags,
        IsOfKind bool ((entries.under "markdown").lookup flag.1)) ∧
      IsOfKind ofNat ((entries.under "markdown").lookup "max_nesting_depth"))
    ⟨fun ⟨h₁, h₂, h₃, h₄, h₅, h₆⟩ ↦ ⟨h₁, h₂, h₃, h₄, h₅, h₆⟩,
      fun h ↦ ⟨h.defaults, h.markdown, h.outputFormat, h.pretty, h.flags, h.maxNestingDepth⟩⟩

/-- Is it the default configuration but for what statements set? -/
structure Overrides (statements : List Statement) (c : Configuration) : Prop where
  outputFormat : Gives string statements "defaults" "output_format"
    ({} : Configuration).defaults.outputFormat c.defaults.outputFormat
  pretty : Gives bool statements "defaults" "pretty"
    ({} : Configuration).defaults.pretty c.defaults.pretty
  flags : ∀ flag ∈ CompileOptions.flags, Gives bool statements "markdown" flag.1
    (flag.2 ({} : Configuration).markdown) (flag.2 c.markdown)
  maxNestingDepth : Gives ofNat statements "markdown" "max_nesting_depth"
    ({} : Configuration).markdown.maxNestingDepth c.markdown.maxNestingDepth

/-! ## Reading -/

section Reading

variable {statements : List Statement} {entries : Entries}

/-- A table of defaults is read field by field, and so is a missing one. -/
theorem ofToml?_defaults
    (htable : IsOfKind ofTable (entries.lookup "defaults")) :
    PrintDefaults.ofToml? (entries.lookup "defaults") = do
      return ⟨← stringField? "json" ((entries.under "defaults").lookup "output_format"),
        ← boolField? true ((entries.under "defaults").lookup "pretty")⟩ := by
  unfold Entries.under
  cases hlookup : entries.lookup "defaults" with
  | none => rfl
  | some value =>
    obtain ⟨⟨origin, found⟩, rfl⟩ := htable value hlookup
    rfl

/-- A table of options is read field by field, and so is a missing one. -/
theorem ofToml?_markdown
    (htable : IsOfKind ofTable (entries.lookup "markdown")) :
    CompileOptions.ofToml? (entries.lookup "markdown") = do
      return ⟨← boolField? true ((entries.under "markdown").lookup "frontmatter"),
        ← boolField? false ((entries.under "markdown").lookup "tables"),
        ← boolField? false ((entries.under "markdown").lookup "strikethrough"),
        ← boolField? false ((entries.under "markdown").lookup "tasklists"),
        ← boolField? false ((entries.under "markdown").lookup "footnotes"),
        ← boolField? false ((entries.under "markdown").lookup "heading_attributes"),
        ← natField? 512 ((entries.under "markdown").lookup "max_nesting_depth")⟩ := by
  unfold Entries.under
  cases hlookup : entries.lookup "markdown" with
  | none => rfl
  | some value =>
    obtain ⟨⟨origin, found⟩, rfl⟩ := htable value hlookup
    rfl

/-- Entries of the right kinds are read as the configuration that overrides the default one. -/
theorem exists_overrides_of_wellTyped
    (hvalues : ∀ key value, .assignment key value ∈ statements → value.isPlain = true)
    (h : ofStatements? statements = some entries) (htyped : WellTyped entries) :
    ∃ c, ofToml? entries = some c ∧ c.Overrides statements := by
  obtain ⟨format, hformat, gformat⟩ := exists_gives hvalues h (stringField? "json") rfl
    (fun _ ↦ rfl) (fun _ ↦ rfl) htyped.outputFormat
  have hflag (fallback : Bool) (name : String)
      (hname : name ∈ CompileOptions.flags.map (·.1)) :
      ∃ b, boolField? fallback ((entries.under "markdown").lookup name) = some b ∧
        Gives bool statements "markdown" name fallback b := by
    obtain ⟨flag, hflag, rfl⟩ := List.mem_map.1 hname
    exact exists_gives hvalues h (boolField? fallback) rfl (fun _ ↦ rfl) (fun _ ↦ rfl)
      (htyped.flags flag hflag)
  obtain ⟨pretty, hpretty, gpretty⟩ := exists_gives hvalues h (boolField? true) rfl
    (fun _ ↦ rfl) (fun _ ↦ rfl) htyped.pretty
  obtain ⟨frontmatter, hfrontmatter, gfrontmatter⟩ := hflag true "frontmatter" (by decide)
  obtain ⟨tables, htables, gtables⟩ := hflag false "tables" (by decide)
  obtain ⟨strikethrough, hstrikethrough, gstrikethrough⟩ := hflag false "strikethrough" (by decide)
  obtain ⟨tasklists, htasklists, gtasklists⟩ := hflag false "tasklists" (by decide)
  obtain ⟨footnotes, hfootnotes, gfootnotes⟩ := hflag false "footnotes" (by decide)
  obtain ⟨attributes, hattributes, gattributes⟩ := hflag false "heading_attributes" (by decide)
  obtain ⟨depth, hdepth, gdepth⟩ := exists_gives hvalues h (natField? 512) rfl
    (fun n ↦ (natField?_some_iff 512 (ofNat n) n).2 rfl) (fun _ ↦ rfl) htyped.maxNestingDepth
  refine ⟨⟨⟨format, pretty⟩, ⟨frontmatter, tables, strikethrough, tasklists, footnotes, attributes,
    depth⟩⟩, ?_, gformat, gpretty, ?_, gdepth⟩
  · rw [ofToml?, ofToml?_defaults htyped.defaults, ofToml?_markdown htyped.markdown, hformat,
      hpretty, hfrontmatter, htables, hstrikethrough, htasklists, hfootnotes, hattributes, hdepth]
    rfl
  · intro flag hmem
    simp only [CompileOptions.flags, List.mem_cons, List.not_mem_nil, or_false] at hmem
    obtain rfl | rfl | rfl | rfl | rfl | rfl := hmem
    · exact gfrontmatter
    · exact gtables
    · exact gstrikethrough
    · exact gtasklists
    · exact gfootnotes
    · exact gattributes

/-- No other configuration overrides the default one with the same statements. -/
theorem Overrides.unique
    (hvalues : ∀ key value, .assignment key value ∈ statements → value.isPlain = true)
    (h : ofStatements? statements = some entries) {c other : Configuration}
    (hc : c.Overrides statements) (hother : other.Overrides statements) : other = c := by
  have hnat : Function.Injective ofNat := fun m n heq ↦ Int.ofNat.inj (integer.inj heq)
  have hformat := hother.outputFormat.unique hvalues h (fun _ _ ↦ string.inj) hc.outputFormat
  have hpretty := hother.pretty.unique hvalues h (fun _ _ ↦ bool.inj) hc.pretty
  have hmarkdown : other.markdown = c.markdown := CompileOptions.eq_of_flags
    (fun flag hmem ↦ (hother.flags flag hmem).unique hvalues h (fun _ _ ↦ bool.inj)
      (hc.flags flag hmem))
    (hother.maxNestingDepth.unique hvalues h hnat hc.maxNestingDepth)
  obtain ⟨⟨format, pretty⟩, markdown⟩ := c
  obtain ⟨⟨otherFormat, otherPretty⟩, otherMarkdown⟩ := other
  obtain rfl : otherFormat = format := hformat
  obtain rfl : otherPretty = pretty := hpretty
  obtain rfl : otherMarkdown = markdown := hmarkdown
  rfl

end Reading

/-- What is loaded for a text that is read as a configuration. -/
theorem parse_of_ofToml? {path text : String} {c : Configuration}
    (h : Toml.parse? text.toList >>= ofToml? = some c) :
    parse path text =
      if c.defaults.outputFormat ∉ ["json", "html"] then
        .error (.validation (Fault.unknownFormat c.defaults.outputFormat).message)
      else if c.markdown.maxNestingDepth = 0 then .error (.validation Fault.noNesting.message)
      else .ok c := by
  have hname : (OutputFormat.ofName? c.defaults.outputFormat).isNone = true ↔
      c.defaults.outputFormat ∉ ["json", "html"] := by
    unfold OutputFormat.ofName?
    split <;> simp_all
  have hparse : parse path text = c.validate >>= fun _ ↦ .ok c := by
    unfold parse
    rw [h]
    rfl
  rw [hparse, validate, fault?]
  by_cases hformat : c.defaults.outputFormat ∉ ["json", "html"]
  · rw [if_pos (hname.2 hformat), if_pos hformat]
    rfl
  · rw [if_neg (mt hname.1 hformat), if_neg hformat]
    by_cases hdepth : c.markdown.maxNestingDepth = 0
    · rw [if_pos hdepth, if_pos hdepth]
      rfl
    · rw [if_neg hdepth, if_neg hdepth]
      rfl

end Configuration

/-- A file whose tables and fields are of the right kinds is loaded as the default configuration but
for what it sets, if the restricted values are allowed. -/
theorem Home.loadFrom_of_wellTyped (h : Home) {path text : String}
    (hfile : h.tree.read? [] path = some text.toUTF8) {statements : List Toml.Statement}
    (hread : Toml.statements? (Toml.dropByteOrderMark text.toList) = some statements)
    {entries : Toml.Entries} (hentries : Toml.ofStatements? statements = some entries)
    (htyped : Configuration.WellTyped entries) :
    ∃ c : Configuration, c.Overrides statements ∧
      (∀ other : Configuration, other.Overrides statements → other = c) ∧
      c.compileOptions = c.markdown ∧
      h.loadFrom path =
        if c.defaults.outputFormat ∉ ["json", "html"] then
          .error (.validation
            (Configuration.Fault.unknownFormat c.defaults.outputFormat).message)
        else if c.markdown.maxNestingDepth = 0 then
          .error (.validation Configuration.Fault.noNesting.message)
        else .ok c := by
  have hvalues : ∀ key value, .assignment key value ∈ statements → value.isPlain = true := by
    intro key value hmem
    obtain ⟨_, _, _, _, hvalue⟩ := Toml.exists_value?_of_mem_statements? hread hmem
    exact Toml.isPlain_of_value? hvalue
  obtain ⟨c, hc, hoverrides⟩ :=
    Configuration.exists_overrides_of_wellTyped hvalues hentries htyped
  have hparse : Toml.parse? text.toList >>= Configuration.ofToml? = some c := by
    rw [Toml.parse?, hread, Option.bind_eq_bind, Option.bind_eq_bind, Option.bind_some, hentries]
    exact hc
  refine ⟨c, hoverrides, fun other ↦ hoverrides.unique hvalues hentries, rfl, ?_⟩
  rw [loadFrom, hfile]
  dsimp only
  rw [ConfigDirectory.readConfiguration, fromUTF8?_toUTF8]
  exact Configuration.parse_of_ofToml? hparse

/-- A configuration file that leaves out most of what is known and has something unknown, in several
ways of writing. -/
def sparseFile : String :=
  "theme = 'dark'\nmarkdown.'max_nesting_depth' = 0x10\nmarkdown.\"tables\" = true\n" ++
    "\n[defaults] # of printing\nindent = 4\npretty = false\n"

/-- The configuration in this file. -/
def sparseConfiguration : Configuration where
  defaults := { pretty := false }
  markdown := { tables := true, maxNestingDepth := 16 }

/-- A home directory with this file. -/
def sparseHome : Home := ⟨"/home", .missing, [("notes.toml", .file sparseFile.toUTF8)]⟩

theorem Home.loadFrom_of_wellTyped_sparse :
    sparseHome.loadFrom "notes.toml" = .ok sparseConfiguration ∧
      ∃ statements,
        Toml.statements? (Toml.dropByteOrderMark sparseFile.toList) = some statements ∧
          sparseConfiguration.Overrides statements := by
  have hload : sparseHome.loadFrom "notes.toml" = .ok sparseConfiguration := by decide +kernel
  have hread : ∃ entries, Toml.parse? sparseFile.toList = some entries ∧
      Configuration.WellTyped entries := by
    have hany : (Toml.parse? sparseFile.toList).any (Configuration.WellTyped ·) = true := by
      decide +kernel
    generalize Toml.parse? sparseFile.toList = read at hany ⊢
    cases read with
    | none => cases hany
    | some entries => exact ⟨entries, rfl, of_decide_eq_true hany⟩
  obtain ⟨entries, hparse, htyped⟩ := hread
  rw [Toml.parse?, Option.bind_eq_bind, Option.bind_eq_some_iff] at hparse
  obtain ⟨statements, hstatements, hentries⟩ := hparse
  have hfile : sparseHome.tree.read? [] "notes.toml" = some sparseFile.toUTF8 := by decide +kernel
  obtain ⟨c, hc, -, -, heq⟩ := sparseHome.loadFrom_of_wellTyped hfile hstatements hentries htyped
  rw [hload] at heq
  refine ⟨hload, statements, hstatements, ?_⟩
  split at heq
  · cases heq
  · split at heq
    · cases heq
    · exact Except.ok.inj heq ▸ hc

end NotebookTree
