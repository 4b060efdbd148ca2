import NotebookTree.Proofs.Command

/-!
# The configuration over whole runs

Writing, removing and blocking from outside, and writing the default configuration, loading and
printing by the program, may follow each other in any order. The directory then behaves as one cell:
`ConfigDirectory.contents?_after` says that it holds the bytes last put into it, and
`ConfigDirectory.isOneCell_after` what loading, printing and writing the default configuration
answer after any steps.
-/

namespace NotebookTree

/-- The octets of a text are read as this text. -/
theorem fromUTF8?_toUTF8 (text : String) : String.fromUTF8? text.toUTF8 = some text :=
  dif_pos text.isValidUTF8

namespace ConfigDirectory

/-! ## Steps -/

/-- What happens to the configuration directory. -/
inductive Step where
  /-- The configuration file is written from outside. -/
  | write (bytes : ByteArray)
  /-- The directory is removed from outside, with all in it. -/
  | remove
  /-- A plain file is put in place of the directory from outside. -/
  | block
  /-- The program writes the default configuration. -/
  | init
  /-- The program loads the configuration. -/
  | load
  /-- The program prints the configuration. -/
  | print

/-- What a step answers. -/
inductive Answer where
  | done
  /-- A plain file was in the way of a writing from outside. -/
  | refused
  | failed (failure : Failure)
  | loaded (c : Configuration)
  | printed (text : String)

/-- The answer to loading a configuration. -/
def Answer.ofReading : Except Failure Configuration → Answer
  | .error failure => failed failure
  | .ok c => loaded c

/-- Takes a step: the directory after it, and its answer. -/
def step (home : String) (d : ConfigDirectory) : Step → ConfigDirectory × Answer
  | .write bytes =>
    match d.write? bytes with
    | none => (d, .refused)
    | some written => (written, .done)
  | .remove => (d.remove, .done)
  | .block => (blocked, .done)
  | .init =>
    match d.init home with
    | .error failure => (d, .failed failure)
    | .ok written => (written, .done)
  | .load => (d, .ofReading (d.load home))
  | .print =>
    match Command.showConfiguration.run home d none with
    | .error failure => (d, .failed failure)
    | .ok (text, left) => (left, .printed text)

/-- The directory after steps. -/
def after (home : String) (d : ConfigDirectory) : List Step → ConfigDirectory
  | [] => d
  | s :: rest => after home (d.step home s).1 rest

/-- The answers of steps, in order. -/
def answers (home : String) (d : ConfigDirectory) : List Step → List Answer
  | [] => []
  | s :: rest => (d.step home s).2 :: answers home (d.step home s).1 rest

/-- Does a step only read? -/
def Step.Reads (s : Step) : Prop := s = load ∨ s = print

/-- What a step puts into the directory, if it changes what is in it: the contents of the file, or
no file. -/
def Step.put? : Step → Option (Option ByteArray)
  | write bytes => some (some bytes)
  | remove => some none
  | init => some (some ({} : Configuration).print.toUTF8)
  | block | load | print => none

/-! ## One step -/

/-- Printing answers with the loaded configuration as a text, and leaves the directory as it is. -/
theorem step_print (home : String) (d : ConfigDirectory) :
    d.step home .print = (d, match d.load home with
      | .error failure => .failed failure
      | .ok c => .printed (c.print ++ "\n")) := by
  have hrun : Command.showConfiguration.run home d none =
      (d.load home >>= fun c ↦ .ok (c.print ++ "\n", d)) := rfl
  rw [step, hrun]
  cases d.load home <;> rfl

theorem step_fst_of_reads {s : Step} (hs : s.Reads) (home : String) (d : ConfigDirectory) :
    (d.step home s).1 = d := by
  obtain rfl | rfl := hs
  · rfl
  · rw [step_print]

/-- Nothing but a plain file hinders writing the default configuration. -/
theorem step_init (home : String) (d : ConfigDirectory) :
    (d = .blocked ∧ d.step home .init =
        (d, .failed (.io (directoryPath home) "a plain file is in the way"))) ∨
      d ≠ .blocked ∧ d.step home .init =
        (.present (some ({} : Configuration).print.toUTF8), .done) := by
  cases d with
  | blocked => exact .inl ⟨rfl, rfl⟩
  | missing => exact .inr ⟨nofun, rfl⟩
  | present file => exact .inr ⟨nofun, rfl⟩

/-- A plain file in place of the directory stays. -/
theorem step_fst_eq_blocked_iff (home : String) (d : ConfigDirectory) (s : Step) :
    (d.step home s).1 = .blocked ↔ d = .blocked ∨ s = .block := by
  cases s with
  | load => simp [step]
  | print => simp [step_print]
  | _ => cases d <;> simp [step, write?, remove, init]

/-- Where there is no plain file, a step puts into the directory what it is to put there. -/
theorem contents?_step (home : String) {d : ConfigDirectory} {s : Step}
    (h : (d.step home s).1 ≠ .blocked) :
    (d.step home s).1.contents? = s.put?.getD d.contents? := by
  cases s with
  | block => exact absurd rfl h
  | load => rfl
  | print => rw [step_fst_of_reads (.inr rfl)]; rfl
  | _ =>
    cases d with
    | blocked => exact absurd rfl h
    | _ => rfl

/-! ## Runs -/

theorem after_eq_blocked_iff (home : String) (d : ConfigDirectory) (steps : List Step) :
    after home d steps = .blocked ↔ d = .blocked ∨ .block ∈ steps := by
  induction steps generalizing d with
  | nil => simp [after]
  | cons s rest ih =>
    rw [after, ih, step_fst_eq_blocked_iff, List.mem_cons, or_assoc, eq_comm (a := s)]

/-- A directory holds what was last put into it, unless a plain file is in its place. -/
theorem contents?_after (home : String) {d : ConfigDirectory} {steps : List Step}
    (h : after home d steps ≠ .blocked) :
    (after home d steps).contents? = ((steps.filterMap Step.put?).getLast?).getD d.contents? := by
  induction steps generalizing d with
  | nil => rfl
  | cons s rest ih =>
    have hnext : (d.step home s).1 ≠ .blocked := fun hblocked ↦
      h ((after_eq_blocked_iff home _ rest).2 (.inl hblocked))
    rw [after, ih h, contents?_step home hnext, List.filterMap_cons]
    cases s.put? with
    | none => rfl
    | some put => rw [Option.getD_some, List.getLast?_cons, Option.getD_some]

theorem after_of_reads (home : String) (d : ConfigDirectory) {steps : List Step}
    (h : ∀ s ∈ steps, s.Reads) : after home d steps = d := by
  induction steps with
  | nil => rfl
  | cons s rest ih =>
    obtain ⟨hs, hrest⟩ := List.forall_mem_cons.1 h
    rw [after, step_fst_of_reads hs, ih hrest]

/-- While steps only read, each of them fails as loading does. -/
theorem answers_of_reads {home : String} {d : ConfigDirectory} {failure : Failure}
    (hload : d.load home = .error failure) {steps : List Step} (h : ∀ s ∈ steps, s.Reads) :
    ∀ answer ∈ answers home d steps, answer = .failed failure := by
  induction steps with
  | nil => exact fun answer hmem ↦ absurd hmem List.not_mem_nil
  | cons s rest ih =>
    obtain ⟨hs, hrest⟩ := List.forall_mem_cons.1 h
    rw [answers, step_fst_of_reads hs, List.forall_mem_cons]
    refine ⟨?_, ih hrest⟩
    obtain rfl | rfl := hs
    · rw [step, hload]
      rfl
    · rw [step_print, hload]

/-- What holds of all that loading answers holds of all configurations loaded in a run. -/
theorem forall_loaded_mem_answers {home : String} {P : Configuration → Prop}
    (hload : ∀ d c, load home d = .ok c → P c) (d : ConfigDirectory) (steps : List Step) :
    ∀ c, .loaded c ∈ answers home d steps → P c := by
  induction steps generalizing d with
  | nil => exact fun c hmem ↦ absurd hmem List.not_mem_nil
  | cons s rest ih =>
    intro c hmem
    obtain hfirst | hrest := List.mem_cons.1 hmem
    · cases s with
      | load =>
        apply hload d c
        rw [step] at hfirst
        cases hread : d.load home with
        | error failure => rw [hread] at hfirst; cases hfirst
        | ok found => rw [hread] at hfirst; cases hfirst; rfl
      | print =>
        rw [step_print] at hfirst
        cases hread : d.load home <;> rw [hread] at hfirst <;> cases hfirst
      | init =>
        obtain ⟨-, hstep⟩ | ⟨-, hstep⟩ := step_init home d <;> rw [hstep] at hfirst <;> cases hfirst
      | _ => cases d <;> cases hfirst
    · exact ih _ c hrest

/-! ## Reading a file -/

/-- Are bytes refused as a configuration, and why? They are no text, the text is no TOML with values
of the right types, or a restricted value is not allowed. -/
inductive Refuses (path : String) (bytes : ByteArray) : Failure → Prop
  | notText (htext : String.fromUTF8? bytes = none) :
    Refuses path bytes (.io path "the file is not UTF-8")
  | notToml {text : String} (htext : String.fromUTF8? bytes = some text)
      (hread : Toml.parse? text.toList >>= Configuration.ofToml? = none) :
    Refuses path bytes (.config ("failed to parse " ++ path))
  | notAllowed {text : String} {c : Configuration} {fault : Configuration.Fault}
      (htext : String.fromUTF8? bytes = some text)
      (hread : Toml.parse? text.toList >>= Configuration.ofToml? = some c)
      (hfault : c.fault? = some fault) :
    Refuses path bytes (.validation fault.message)

theorem refuses_of_readConfiguration_eq_error {path : String} {bytes : ByteArray}
    {failure : Failure} (h : readConfiguration path bytes = .error failure) :
    Refuses path bytes failure := by
  unfold readConfiguration at h
  cases htext : String.fromUTF8? bytes with
  | none =>
    rw [htext] at h
    cases h
    exact .notText htext
  | some text =>
    rw [htext] at h
    dsimp only [Configuration.parse] at h
    cases hread : Toml.parse? text.toList >>= Configuration.ofToml? with
    | none =>
      rw [hread] at h
      cases h
      exact .notToml htext hread
    | some c =>
      rw [hread] at h
      dsimp only [Configuration.validate] at h
      cases hfault : c.fault? with
      | none => rw [hfault] at h; cases h
      | some fault =>
        rw [hfault] at h
        cases h
        exact .notAllowed htext hread hfault

/-- The default configuration is read back from what is written for it. -/
theorem readConfiguration_print_default (path : String) :
    readConfiguration path ({} : Configuration).print.toUTF8 = .ok {} := by
  have hread : Toml.parse? ({} : Configuration).print.toList >>= Configuration.ofToml? =
      some {} := by
    -- The characters are evaluated as a list: it is far slower through the text made of them.
    rw [Configuration.print, String.toList_ofList]
    decide +kernel
  obtain ⟨entries, hentries, hc⟩ := Option.bind_eq_some_iff.1 hread
  rw [readConfiguration, fromUTF8?_toUTF8]
  exact Configuration.parse_eq_ok_iff.2 ⟨entries, hentries, hc, by decide, by decide⟩

theorem load_eq_reading (home : String) (d : ConfigDirectory) :
    d.load home = match d.contents? with
      | none => .ok {}
      | some bytes => readConfiguration (filePath home) bytes := rfl

/-- A loaded configuration is a valid one. -/
theorem validate_of_load_eq_ok {home : String} {d : ConfigDirectory} {c : Configuration}
    (h : d.load home = .ok c) : c.validate = .ok () := by
  rw [Configuration.validate_eq_ok_iff]
  have hholds := load_eq_ok_iff.1 h
  unfold Holds at hholds
  cases hcontents : d.contents? with
  | none =>
    rw [hcontents] at hholds
    subst hholds
    rfl
  | some bytes =>
    rw [hcontents] at hholds
    obtain ⟨text, entries, -, -, -, hformat, hdepth⟩ := hholds
    exact Configuration.fault?_eq_none_iff.2 ⟨hformat, hdepth⟩

/-- If nothing is written from outside after the default configuration, it is the one that holds. -/
theorem load_after_init {home : String} (d : ConfigDirectory) {more : List Step}
    (hmore : ∀ bytes, .write bytes ∉ more) :
    load home (after home d (.init :: more)) = .ok {} := by
  rw [load_eq_reading]
  by_cases hblocked : after home d (.init :: more) = .blocked
  · rw [hblocked]
    rfl
  · have hput : ∀ put ∈ (Step.init :: more).filterMap Step.put?,
        put = none ∨ put = some ({} : Configuration).print.toUTF8 := by
      intro put hmem
      obtain ⟨s, hs, hput⟩ := List.mem_filterMap.1 hmem
      cases s with
      | write bytes =>
        obtain h | h := List.mem_cons.1 hs
        · cases h
        · exact absurd h (hmore bytes)
      | remove => exact .inl (Option.some.inj hput).symm
      | init => exact .inr (Option.some.inj hput).symm
      | _ => cases hput
    obtain ⟨last, hlast⟩ : ∃ last,
        ((Step.init :: more).filterMap Step.put?).getLast? = some last :=
      ⟨_, List.getLast?_cons⟩
    rw [contents?_after home hblocked, hlast, Option.getD_some]
    obtain rfl | rfl := hput last (List.mem_of_getLast? hlast)
    · rfl
    · exact readConfiguration_print_default (filePath home)

/-! ## One cell -/

/-- The law of the configuration directory, in the state `d` to which steps have led. -/
structure IsOneCell (home : String) (start : ConfigDirectory) (steps : List Step)
    (d : ConfigDirectory) : Prop where
  /-- Loading and printing leave the directory as it is. -/
  keeps : ∀ s : Step, s.Reads → (d.step home s).1 = d
  /-- A plain file is in place of the directory once it is put there. -/
  blocked_iff : d = .blocked ↔ start = .blocked ∨ .block ∈ steps
  /-- Else the file has the bytes that were last written, unless it was removed after that. -/
  contents : d ≠ .blocked →
    d.contents? = ((steps.filterMap Step.put?).getLast?).getD start.contents?
  /-- Without a file, loading answers with the default configuration. -/
  load_none : d = .blocked ∨ d.contents? = none → (d.step home .load).2 = .loaded {}
  /-- Else loading answers with what the bytes of the file say. -/
  load_some : ∀ bytes, d.contents? = some bytes →
    (d.step home .load).2 = .ofReading (readConfiguration (filePath home) bytes)
  /-- Writing the default configuration fails only because of a plain file. -/
  init_fails_iff : (∃ failure, (d.step home .init).2 = .failed failure) ↔ d = .blocked
  /-- If it fails, it leaves the directory as it is. -/
  init_keeps : d = .blocked → (d.step home .init).1 = d
  /-- If it succeeds, the default configuration holds until something else is written. -/
  init_load : d ≠ .blocked → (d.step home .init).2 = .done ∧
    ∀ more : List Step, (∀ bytes, .write bytes ∉ more) →
      ((after home d (.init :: more)).step home .load).2 = .loaded {}
  /-- A file is refused for what it says, and stays. As long as it is only read, each reading fails
  for the same reason. -/
  rejected : ∀ failure, (d.step home .load).2 = .failed failure →
    (∃ bytes, d.contents? = some bytes ∧ Refuses (filePath home) bytes failure) ∧
      ∀ more : List Step, (∀ s ∈ more, s.Reads) →
        after home d more = d ∧ ∀ answer ∈ answers home d more, answer = .failed failure
  /-- All configurations that have been loaded are valid. -/
  valid : ∀ c, .loaded c ∈ answers home start steps → c.validate = .ok ()

/-- After any steps, from any state of the directory, it behaves as one cell. -/
theorem isOneCell_after (home : String) (start : ConfigDirectory) (steps : List Step) :
    IsOneCell home start steps (after home start steps) where
  keeps := fun s hs ↦ step_fst_of_reads hs home _
  blocked_iff := after_eq_blocked_iff home start steps
  contents := contents?_after home
  load_none := fun h ↦ by
    have hcontents : (after home start steps).contents? = none :=
      h.elim (fun hblocked ↦ by rw [hblocked]; rfl) id
    rw [step, load_eq_reading, hcontents]
    rfl
  load_some := fun bytes h ↦ by rw [step, load_eq_reading, h]
  init_fails_iff := by
    obtain ⟨hblocked, hstep⟩ | ⟨hnot, hstep⟩ := step_init home (after home start steps)
    · exact ⟨fun _ ↦ hblocked, fun _ ↦ ⟨_, congrArg Prod.snd hstep⟩⟩
    · refine ⟨fun ⟨failure, h⟩ ↦ ?_, fun h ↦ absurd h hnot⟩
      rw [hstep] at h
      cases h
  init_keeps := fun h ↦ by
    rw [h]
    rfl
  init_load := fun h ↦ by
    obtain ⟨hblocked, -⟩ | ⟨-, hstep⟩ := step_init home (after home start steps)
    · exact absurd hblocked h
    · refine ⟨congrArg Prod.snd hstep, fun more hmore ↦ ?_⟩
      rw [step, load_after_init _ hmore]
      rfl
  rejected := fun failure h ↦ by
    have hload : load home (after home start steps) = .error failure := by
      rw [step] at h
      cases hread : load home (after home start steps) with
      | error found => rw [hread] at h; cases h; rfl
      | ok c => rw [hread] at h; cases h
    refine ⟨?_, fun more hmore ↦ ⟨after_of_reads home _ hmore, answers_of_reads hload hmore⟩⟩
    rw [load_eq_reading] at hload
    cases hcontents : (after home start steps).contents? with
    | none => rw [hcontents] at hload; cases hload
    | some bytes =>
      rw [hcontents] at hload
      exact ⟨bytes, rfl, refuses_of_readConfiguration_eq_error hload⟩
  valid := forall_loaded_mem_answers (fun _ _ ↦ validate_of_load_eq_ok) start steps

/-- Steps that leave a file that is no text. -/
def unreadableSteps : List Step := [.init, .load, .write ⟨#[0xff]⟩]

theorem isOneCell_after_unreadable :
    answers "/home" (after "/home" .missing unreadableSteps) [.load, .print] =
      [.failed (.io "/home/.nbcontent/nbcontent.toml" "the file is not UTF-8"),
        .failed (.io "/home/.nbcontent/nbcontent.toml" "the file is not UTF-8")] ∧
    after "/home" (after "/home" .missing unreadableSteps) [.load, .print] =
      .present (some ⟨#[0xff]⟩) ∧
    ((after "/home" (after "/home" .missing unreadableSteps) [.init, .remove]).step "/home"
      .load).2 = .loaded {} := by
  have hcell := isOneCell_after "/home" .missing unreadableSteps
  have hnot : after "/home" .missing unreadableSteps ≠ .blocked := by
    rw [Ne, hcell.blocked_iff]
    simp [unreadableSteps]
  have hload := hcell.load_some ⟨#[0xff]⟩ (hcell.contents hnot)
  have hreading : readConfiguration (filePath "/home") ⟨#[0xff]⟩ =
      .error (.io "/home/.nbcontent/nbcontent.toml" "the file is not UTF-8") := by decide +kernel
  rw [hreading] at hload
  obtain ⟨-, hstays⟩ := hcell.rejected _ hload
  obtain ⟨hafter, hanswers⟩ := hstays [.load, .print] (by simp [Step.Reads])
  refine ⟨?_, hafter.trans rfl, ?_⟩
  · exact List.eq_replicate_iff.2 ⟨rfl, hanswers⟩
  · exact (hcell.init_load hnot).2 [.remove] (by simp)

end ConfigDirectory

end NotebookTree
