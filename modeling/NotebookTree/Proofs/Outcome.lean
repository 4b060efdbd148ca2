/-!
# Outcomes of fallible computations

When a sequence of computations succeeds, each of its steps has succeeded.
-/

namespace NotebookTree.Outcome

variable {ε α β : Type}

/-- A sequence succeeds exactly when its first step does and then the rest. -/
theorem bind_eq_ok {first : Except ε α} {next : α → Except ε β} {result : β} :
    first >>= next = .ok result ↔ ∃ value, first = .ok value ∧ next value = .ok result := by
  cases first <;> simp [bind, Except.bind]

theorem pure_eq_ok {value result : α} :
    (pure value : Except ε α) = .ok result ↔ value = result := by
  simp [pure, Except.pure]

theorem exists_eq_ok {outcome : Except ε α} (h : outcome.isOk = true) :
    ∃ value, outcome = .ok value := by
  cases outcome with
  | error error => cases h
  | ok value => exact ⟨value, rfl⟩

theorem exists_eq_error {outcome : Except ε α} (h : outcome.isOk = false) :
    ∃ error, outcome = .error error := by
  cases outcome with
  | error error => exact ⟨error, rfl⟩
  | ok value => cases h

theorem eq_ok_of_toOption {outcome : Except ε α} {value : α} (h : outcome.toOption = some value) :
    outcome = .ok value := by
  cases outcome with
  | error error => cases h
  | ok found => rw [Option.some.inj h]

end NotebookTree.Outcome
