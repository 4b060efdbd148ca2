import NotebookTree.Proofs.Configuration.Override
import NotebookTree.Proofs.Toml.Line

/-!
# Printed configurations are configurations

`Configuration.parse_print` says that a printed configuration with allowed values is read as itself
if its nesting limit is an integer of TOML, and `Configuration.maxNestingDepth_lt_of_parse_eq_ok`
that the limit of any configuration that is read is one. A loaded configuration may thus be printed,
kept as the configuration file, loaded and printed again, and so on:
`ConfigDirectory.answers_of_keeps`.
-/

namespace NotebookTree

namespace Configuration

open Toml

/-! ## Reading what is printed -/

section Lines

variable {name : String} (hname : IsBare name.toList) {rest : List Char}
  {statements : List Statement}
include hname

theorem statements?_fieldLine {written : List Char} {value : Toml}
    (hwritten : skipIndent (written ++ '\n' :: rest) = written ++ '\n' :: rest)
    (hvalue : ∀ fuel, value? (fuel + 1) (depthLimit - 1) (written ++ '\n' :: rest) =
      some (value, '\n' :: rest))
    (h : statements? rest = some statements) :
    statements? (fieldLine name written ++ rest) =
      some (.assignment ⟨[], name⟩ value :: statements) := by
  have hline := statement?_assignment hname hwritten hvalue
  rw [String.ofList_toList] at hline
  refine statements?_append (by simp [fieldLine]) ?_ h
  simpa [fieldLine] using hline

theorem statements?_boolLine (b : Bool) (h : statements? rest = some statements) :
    statements? (fieldLine name (boolChars b) ++ rest) =
      some (.assignment ⟨[], name⟩ (.bool b) :: statements) :=
  statements?_fieldLine hname (by cases b <;> rfl) (fun fuel ↦ value?_bool b fuel _ rest) h

theorem statements?_natLine {n : Nat} (hn : n < integerBound)
    (h : statements? rest = some statements) :
    statements? (fieldLine name (Decimal.natDigits n) ++ rest) =
      some (.assignment ⟨[], name⟩ (.integer n) :: statements) :=
  statements?_fieldLine hname (skipIndent_append (isBare_natDigits n) _)
    (fun fuel ↦ value?_natDigits hn fuel _ rest) h

theorem statements?_stringLine {text : String} (htext : ∀ c ∈ text.toList, isTextChar c = true)
    (h : statements? rest = some statements) :
    statements? (fieldLine name ('"' :: text.toList.flatMap quotedChar ++ ['"']) ++ rest) =
      some (.assignment ⟨[], name⟩ (.string text) :: statements) := by
  refine statements?_fieldLine hname rfl (fun fuel ↦ ?_) h
  have hvalue := value?_quoted htext fuel (depthLimit - 1) rest
  rw [String.ofList_toList] at hvalue
  simpa using hvalue

theorem statements?_headerLine (h : statements? rest = some statements) :
    statements? ('[' :: name.toList ++ [']', '\n'] ++ rest) =
      some (.header ⟨[], name⟩ :: statements) := by
  have hline := statement?_header hname rest
  rw [String.ofList_toList] at hline
  refine statements?_append (List.cons_ne_nil _ _) ?_ h
  simpa using hline

end Lines

theorem statements?_boolLines {flags : List (String × (CompileOptions → Bool))}
    (hnames : ∀ flag ∈ flags, IsBare flag.1.toList) (o : CompileOptions) {rest : List Char}
    {statements : List Statement} (h : statements? rest = some statements) :
    statements? (flags.flatMap (fun flag ↦ fieldLine flag.1 (boolChars (flag.2 o))) ++ rest) =
      some (flags.map (fun flag ↦ .assignment ⟨[], flag.1⟩ (.bool (flag.2 o))) ++ statements) := by
  induction flags with
  | nil => exact h
  | cons flag flags ih =>
    obtain ⟨hname, hnames⟩ := List.forall_mem_cons.1 hnames
    rw [List.flatMap_cons, List.append_assoc]
    exact statements?_boolLine hname _ (ih hnames)

/-- The statements of a printed table of defaults. -/
def defaultsStatements (d : PrintDefaults) : List Statement :=
  [.header ⟨[], "defaults"⟩, .assignment ⟨[], "output_format"⟩ (.string d.outputFormat),
    .assignment ⟨[], "pretty"⟩ (.bool d.pretty)]

/-- The statements of a printed table of options. -/
def markdownStatements (o : CompileOptions) : List Statement :=
  .header ⟨[], "markdown"⟩ ::
    CompileOptions.flags.map (fun flag ↦ .assignment ⟨[], flag.1⟩ (.bool (flag.2 o))) ++
      [.assignment ⟨[], "max_nesting_depth"⟩ (.integer o.maxNestingDepth)]

theorem statements?_defaultsChars {d : PrintDefaults}
    (hformat : ∀ c ∈ d.outputFormat.toList, isTextChar c = true) {rest : List Char}
    {statements : List Statement} (h : statements? rest = some statements) :
    statements? (defaultsChars d ++ rest) = some (defaultsStatements d ++ statements) := by
  have hheader : "[defaults]\n".toList = '[' :: "defaults".toList ++ [']', '\n'] := by decide
  unfold defaultsChars defaultsStatements
  simp only [List.append_assoc]
  rw [hheader]
  refine statements?_headerLine (by decide) ?_
  refine statements?_stringLine (by decide) hformat ?_
  exact statements?_boolLine (by decide) d.pretty h

theorem statements?_markdownChars {o : CompileOptions} (hdepth : o.maxNestingDepth < integerBound)
    {rest : List Char} {statements : List Statement} (h : statements? rest = some statements) :
    statements? (markdownChars o ++ rest) = some (markdownStatements o ++ statements) := by
  have hheader : "[markdown]\n".toList = '[' :: "markdown".toList ++ [']', '\n'] := by decide
  have hlines : markdownChars o ++ rest = '[' :: "markdown".toList ++ [']', '\n'] ++
      (CompileOptions.flags.flatMap (fun flag ↦ fieldLine flag.1 (boolChars (flag.2 o))) ++
        (fieldLine "max_nesting_depth" (Decimal.natDigits o.maxNestingDepth) ++ rest)) := by
    unfold markdownChars
    rw [hheader]
    simp only [CompileOptions.flags, List.flatMap_cons, List.flatMap_nil, List.append_assoc,
      List.nil_append]
  have hname : IsBare "max_nesting_depth".toList := by decide
  have hnames : ∀ flag ∈ CompileOptions.flags, IsBare flag.1.toList := by decide
  have hread := statements?_boolLines hnames o (statements?_natLine hname hdepth h)
  have hmarkdown : IsBare "markdown".toList := by decide
  rw [hlines, statements?_headerLine hmarkdown hread, markdownStatements, List.append_assoc]
  rfl

/-- The table that a printed configuration is. -/
def toToml (c : Configuration) : Entries :=
  [("defaults", .table .header
      [("output_format", .string c.defaults.outputFormat), ("pretty", .bool c.defaults.pretty)]),
    ("markdown", .table .header
      [("frontmatter", .bool c.markdown.frontmatter), ("tables", .bool c.markdown.tables),
        ("strikethrough", .bool c.markdown.strikethrough),
        ("tasklists", .bool c.markdown.tasklists), ("footnotes", .bool c.markdown.footnotes),
        ("heading_attributes", .bool c.markdown.headingAttributes),
        ("max_nesting_depth", ofNat c.markdown.maxNestingDepth)])]

theorem ofToml?_toToml (c : Configuration) : ofToml? c.toToml = some c := by
  have hread : ofToml? c.toToml =
      (natField? defaultNestingDepth (some (ofNat c.markdown.maxNestingDepth))).bind
        fun depth ↦ some ⟨c.defaults, { c.markdown with maxNestingDepth := depth }⟩ := rfl
  rw [hread, (natField?_some_iff _ _ _).2 rfl]
  rfl

theorem parse?_print {c : Configuration}
    (hformat : ∀ char ∈ c.defaults.outputFormat.toList, isTextChar char = true)
    (hdepth : c.markdown.maxNestingDepth < integerBound) :
    parse? (c.print ++ "\n").toList = some c.toToml := by
  have hend : statements? ['\n'] = some [.blank] := rfl
  have hblank {rest : List Char} {statements : List Statement}
      (h : statements? rest = some statements) :
      statements? ('\n' :: rest) = some (.blank :: statements) :=
    statements?_append (List.cons_ne_nil '\n' []) rfl h
  have hread := statements?_defaultsChars hformat (hblank (statements?_markdownChars hdepth hend))
  have htext : (c.print ++ "\n").toList =
      defaultsChars c.defaults ++ '\n' :: (markdownChars c.markdown ++ ['\n']) := by
    rw [print, String.toList_append, String.toList_ofList, List.append_assoc]
    rfl
  have hmark : dropByteOrderMark (c.print ++ "\n").toList = (c.print ++ "\n").toList := by
    rw [htext]
    rfl
  rw [parse?, hmark, htext, hread]
  rfl

/-- A printed configuration with allowed values is read as itself. -/
theorem parse_print {c : Configuration} (hformat : c.defaults.outputFormat ∈ ["json", "html"])
    (hpos : 1 ≤ c.markdown.maxNestingDepth) (hdepth : c.markdown.maxNestingDepth < integerBound)
    (path : String) : parse path (c.print ++ "\n") = .ok c := by
  have htext : c.defaults.outputFormat.toList.all isTextChar = true := by
    simp only [List.mem_cons, List.not_mem_nil, or_false] at hformat
    obtain hname | hname := hformat <;> rw [hname] <;> decide
  have hentries := parse?_print (List.all_eq_true.1 htext) hdepth
  exact parse_eq_ok_iff.2 ⟨c.toToml, hentries, ofToml?_toToml c, hformat, hpos⟩

/-! ## The nesting limit of what is read -/

theorem fits_of_mem_fields? {value : Toml} (hvalue : Fits value) {names : List String}
    {fields : List (Option Toml)} (h : value.fields? names = some fields) {field : Toml}
    (hmem : some field ∈ fields) : Fits field := by
  cases hvalue with
  | table hentries =>
    obtain rfl := Option.some.inj h
    obtain ⟨name, -, hlookup⟩ := List.mem_map.1 hmem
    exact AllFit.of_lookup hentries hlookup
  | array hitems =>
    obtain rfl := Option.some.inj h
    obtain ⟨i, -, hget⟩ := List.mem_map.1 hmem
    exact hitems field (List.mem_of_getElem? hget)
  | tables hitems =>
    obtain rfl := Option.some.inj h
    obtain ⟨i, -, hget⟩ := List.mem_map.1 hmem
    obtain ⟨entries, hentries, rfl⟩ := Option.map_eq_some_iff.1 hget
    exact .table (hitems entries (List.mem_of_getElem? hentries))
  | dateTime =>
    obtain rfl := Option.some.inj h
    obtain ⟨name, -, hnone⟩ := List.mem_map.1 hmem
    cases hnone
  | _ => cases h

theorem natField?_lt {fallback n : Nat} {field : Option Toml} (hfallback : fallback < integerBound)
    (hfield : ∀ value, field = some value → Fits value) (h : natField? fallback field = some n) :
    n < integerBound := by
  unfold natField? at h
  split at h
  · exact Option.some.inj h ▸ hfallback
  · split at h
    · obtain rfl := Option.some.inj h
      cases hfield _ rfl with
      | integer hrange =>
        obtain ⟨-, hlt⟩ := hrange
        omega
    · cases h
  · cases h

theorem maxNestingDepth_lt_of_ofToml? {field : Option Toml}
    (hfield : ∀ value, field = some value → Fits value) {o : CompileOptions}
    (h : CompileOptions.ofToml? field = some o) : o.maxNestingDepth < integerBound := by
  have hfallback : defaultNestingDepth < integerBound := by decide
  unfold CompileOptions.ofToml? at h
  split at h
  · exact Option.some.inj h ▸ hfallback
  · next value =>
    obtain ⟨fields, hfields, h⟩ := Option.bind_eq_some_iff.1 h
    split at h
    · iterate 6 obtain ⟨_, -, h⟩ := Option.bind_eq_some_iff.1 h
      obtain ⟨depth, hdepth, h⟩ := Option.bind_eq_some_iff.1 h
      obtain rfl := Option.some.inj h
      refine natField?_lt hfallback (fun value' heq ↦ ?_) hdepth
      subst heq
      exact fits_of_mem_fields? (hfield value rfl) hfields (by simp)
    · cases h

/-- The nesting limit of a configuration that is read is an integer of TOML. -/
theorem maxNestingDepth_lt_of_parse_eq_ok {path text : String} {c : Configuration}
    (h : parse path text = .ok c) : c.markdown.maxNestingDepth < integerBound := by
  obtain ⟨entries, hentries, hc, -, -⟩ := parse_eq_ok_iff.1 h
  obtain ⟨defaults, -, hc⟩ := Option.bind_eq_some_iff.1 hc
  obtain ⟨markdown, hmarkdown, hc⟩ := Option.bind_eq_some_iff.1 hc
  obtain rfl := Option.some.inj hc
  exact maxNestingDepth_lt_of_ofToml? (fun value ↦ (allFit_of_parse? hentries).of_lookup) hmarkdown

end Configuration

namespace ConfigDirectory

/-! ## Printing, writing and loading -/

/-- Does a step only read, or write a configuration as it is printed? -/
def Step.Keeps (c : Configuration) (s : Step) : Prop :=
  s.Reads ∨ s = .write (c.print ++ "\n").toUTF8

/-- What such a step answers while the configuration holds. -/
def Answer.ofStep (c : Configuration) : Step → Answer
  | .load => .loaded c
  | .print => .printed (c.print ++ "\n")
  | _ => .done

section Runs

variable {home : String} {d : ConfigDirectory} {c : Configuration}

/-- A loaded configuration has allowed values, and its nesting limit is an integer of TOML. -/
theorem fits_of_load_eq_ok (hload : d.load home = .ok c) :
    c.defaults.outputFormat ∈ ["json", "html"] ∧ 1 ≤ c.markdown.maxNestingDepth ∧
      c.markdown.maxNestingDepth < Toml.integerBound := by
  have hvalid := Configuration.validate_eq_ok_iff.1 (validate_of_load_eq_ok hload)
  obtain ⟨hformat, hpos⟩ := Configuration.fault?_eq_none_iff.1 hvalid
  refine ⟨hformat, hpos, ?_⟩
  rw [load_eq_reading] at hload
  split at hload
  · obtain rfl := Except.ok.inj hload
    decide
  · unfold readConfiguration at hload
    split at hload
    · cases hload
    · exact Configuration.maxNestingDepth_lt_of_parse_eq_ok hload

/-- Such a configuration is loaded from what is printed for it. -/
theorem load_print (home : String) (hformat : c.defaults.outputFormat ∈ ["json", "html"])
    (hpos : 1 ≤ c.markdown.maxNestingDepth)
    (hdepth : c.markdown.maxNestingDepth < Toml.integerBound) :
    load home (.present (some (c.print ++ "\n").toUTF8)) = .ok c := by
  have hparse := Configuration.parse_print hformat hpos hdepth (filePath home)
  rw [← hparse, load_eq_reading]
  dsimp only [contents?]
  rw [readConfiguration, fromUTF8?_toUTF8]

theorem step_of_keeps (hopen : d ≠ .blocked) (hload : d.load home = .ok c) {s : Step}
    (hs : s.Keeps c) :
    (d.step home s).1 ≠ .blocked ∧ (d.step home s).1.load home = .ok c ∧
      (d.step home s).2 = .ofStep c s := by
  obtain (rfl | rfl) | rfl := hs
  · refine ⟨hopen, hload, ?_⟩
    rw [step, hload]
    rfl
  · rw [step_print]
    refine ⟨hopen, hload, ?_⟩
    rw [hload]
    rfl
  · have hwrite : d.step home (.write (c.print ++ "\n").toUTF8) =
        (.present (some (c.print ++ "\n").toUTF8), .done) := by
      cases d with
      | blocked => exact absurd rfl hopen
      | _ => rfl
    obtain ⟨hformat, hpos, hdepth⟩ := fits_of_load_eq_ok hload
    rw [hwrite]
    refine ⟨fun hblocked ↦ ?_, load_print home hformat hpos hdepth, rfl⟩
    cases hblocked

/-- The configuration holds throughout such steps. -/
theorem answers_of_keeps (hopen : d ≠ .blocked) (hload : d.load home = .ok c) {steps : List Step}
    (hsteps : ∀ s ∈ steps, s.Keeps c) : answers home d steps = steps.map (.ofStep c) := by
  induction steps generalizing d with
  | nil => rfl
  | cons s rest ih =>
    obtain ⟨hs, hrest⟩ := List.forall_mem_cons.1 hsteps
    obtain ⟨hopen, hload, hanswer⟩ := step_of_keeps hopen hload hs
    rw [answers, hanswer, ih hopen hload hrest, List.map_cons]

end Runs

/-- A loaded configuration is printed as a text that, as the configuration file, is loaded as the
same configuration and printed as the same text. This is so for each allowed name of a format, for
all truth values and for each nesting limit that an integer of TOML can be. -/
theorem answers_print_write_load (home : String) (c : Configuration) :
    (∀ d : ConfigDirectory, d ≠ .blocked → d.load home = .ok c →
      answers home d [.print, .write (c.print ++ "\n").toUTF8, .load, .print] =
        [.printed (c.print ++ "\n"), .done, .loaded c, .printed (c.print ++ "\n")]) ∧
    ((∃ bytes, load home (.present (some bytes)) = .ok c) ↔
      c.defaults.outputFormat ∈ ["json", "html"] ∧ 1 ≤ c.markdown.maxNestingDepth ∧
        c.markdown.maxNestingDepth < Toml.integerBound) := by
  refine ⟨fun d hopen hload ↦ ?_, ?_⟩
  · exact answers_of_keeps hopen hload (by simp [Step.Keeps, Step.Reads])
  · constructor
    · rintro ⟨bytes, hload⟩
      exact fits_of_load_eq_ok hload
    · rintro ⟨hformat, hpos, hdepth⟩
      exact ⟨_, load_print home hformat hpos hdepth⟩

/-- A configuration file with the greatest nesting limit. -/
def deepFile : String :=
  "[markdown]\nmax_nesting_depth = 9_223_372_036_854_775_807\ntasklists = true\n\n" ++
    "[defaults]\noutput_format = 'html'\n"

/-- The configuration in this file. -/
def deepConfiguration : Configuration where
  defaults := { outputFormat := "html" }
  markdown := { tasklists := true, maxNestingDepth := 9223372036854775807 }

theorem answers_print_write_load_deep :
    load "/home" (.present (some deepFile.toUTF8)) = .ok deepConfiguration ∧
      answers "/home" (.present (some deepFile.toUTF8))
          [.print, .write (deepConfiguration.print ++ "\n").toUTF8, .load, .print] =
        [.printed (deepConfiguration.print ++ "\n"), .done, .loaded deepConfiguration,
          .printed (deepConfiguration.print ++ "\n")] := by
  have hload : load "/home" (.present (some deepFile.toUTF8)) = .ok deepConfiguration := by
    decide +kernel
  exact ⟨hload, (answers_print_write_load "/home" deepConfiguration).1 _ nofun hload⟩

end ConfigDirectory

end NotebookTree
