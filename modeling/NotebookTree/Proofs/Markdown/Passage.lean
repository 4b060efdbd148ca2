import NotebookTree.Markdown.Event

/-!
# Passages

A well-nested sequence of events is the reading of a forest: a `Passage` is a leaf or a construct
with the passages in it, and `Passage.events` reads it from its opening to its closing event.
`Event.balanced_iff_exists_passages` says that the sequences in which each closing event closes
the construct opened last, and which leave nothing open, are exactly the readings of forests.
-/

namespace NotebookTree.Markdown

/-- Does an event neither open nor close a construct? -/
def Event.isLeaf : Event → Bool
  | .start _ => false
  | .stop _ => false
  | _ => true

/-- A leaf of a Markdown text, or a construct with the passages in it. -/
inductive Passage where
  | leaf (event : Event) (isLeaf : event.isLeaf = true)
  | within (construct : Construct) (contents : List Passage)

namespace Passage

mutual

/-- The events of a passage. -/
def events : Passage → List Event
  | leaf event _ => [event]
  | within construct contents => construct.around (eventsAll contents)

/-- The events of passages one after the other. -/
def eventsAll : List Passage → List Event
  | [] => []
  | passage :: rest => events passage ++ eventsAll rest

end

mutual

/-- How many constructs are open at most in a passage. -/
def depth : Passage → Nat
  | leaf _ _ => 0
  | within _ contents => depthAll contents + 1

/-- How many constructs are open at most in passages. -/
def depthAll : List Passage → Nat
  | [] => 0
  | passage :: rest => max (depth passage) (depthAll rest)

end

/-- Is it a construct of one of the given kinds? -/
def hasKindIn (kinds : List ConstructKind) : Passage → Bool
  | leaf _ _ => false
  | within construct _ => construct.kind ∈ kinds

end Passage

namespace Event

/-- Does each closing event close the construct that was opened last, with nothing left open? The
given constructs are open at first, the innermost first. -/
def balanced : List ConstructKind → List Event → Bool
  | opened, [] => opened.isEmpty
  | opened, .start construct :: rest => balanced (construct.kind :: opened) rest
  | [], .stop _ :: _ => false
  | innermost :: opened, .stop kind :: rest => innermost == kind && balanced opened rest
  | opened, _ :: rest => balanced opened rest

/-- The closing events of open constructs, with the passages behind each of them. -/
def closings (opened : List ConstructKind) (behind : List (List Passage)) : List Event :=
  (opened.zip behind).flatMap fun (kind, passages) ↦ .stop kind :: Passage.eventsAll passages

theorem balanced_of_isLeaf {event : Event} (h : event.isLeaf = true) (opened : List ConstructKind)
    (rest : List Event) : balanced opened (event :: rest) = balanced opened rest := by
  cases event with
  | start construct => cases h
  | stop kind => cases h
  | _ => rw [balanced] <;> simp

/-- What follows while constructs are open is a forest, and a forest behind the end of each. -/
theorem exists_passages_of_balanced {events : List Event} {opened : List ConstructKind}
    (h : balanced opened events = true) :
    ∃ passages behind, behind.length = opened.length ∧
      events = Passage.eventsAll passages ++ closings opened behind := by
  induction events generalizing opened with
  | nil =>
    rw [balanced, List.isEmpty_iff] at h
    subst h
    exact ⟨[], [], rfl, rfl⟩
  | cons event rest ih =>
    by_cases hleaf : event.isLeaf = true
    · rw [balanced_of_isLeaf hleaf] at h
      obtain ⟨passages, behind, hlength, hrest⟩ := ih h
      refine ⟨.leaf event hleaf :: passages, behind, hlength, ?_⟩
      rw [hrest]
      rfl
    · cases event with
      | start construct =>
        rw [balanced] at h
        obtain ⟨contents, behind, hlength, hrest⟩ := ih h
        obtain _ | ⟨passages, behind⟩ := behind
        · cases hlength
        · refine ⟨.within construct contents :: passages, behind, Nat.succ.inj hlength, ?_⟩
          rw [hrest]
          simp [closings, Passage.eventsAll, Passage.events, Construct.around]
      | stop kind =>
        cases opened with
        | nil =>
          rw [balanced] at h
          cases h
        | cons innermost opened =>
          rw [balanced, Bool.and_eq_true, beq_iff_eq] at h
          obtain ⟨rfl, h⟩ := h
          obtain ⟨passages, behind, hlength, hrest⟩ := ih h
          refine ⟨[], passages :: behind, congrArg Nat.succ hlength, ?_⟩
          rw [hrest]
          simp [closings, Passage.eventsAll]
      | _ => exact absurd rfl hleaf

mutual

theorem balanced_events_append (opened : List ConstructKind) (rest : List Event) :
    ∀ passage : Passage,
      balanced opened (passage.events ++ rest) = balanced opened rest
  | .leaf event hleaf => balanced_of_isLeaf hleaf opened rest
  | .within construct contents => by
    rw [Passage.events, Construct.around, List.cons_append, List.append_assoc, balanced,
      balanced_eventsAll_append, List.singleton_append, balanced, beq_self_eq_true, Bool.true_and]

/-- Passages leave open what was open before them. -/
theorem balanced_eventsAll_append (opened : List ConstructKind) (rest : List Event) :
    ∀ passages : List Passage,
      balanced opened (Passage.eventsAll passages ++ rest) = balanced opened rest
  | [] => rfl
  | passage :: passages => by
    rw [Passage.eventsAll, List.append_assoc, balanced_events_append,
      balanced_eventsAll_append]

end

/-- The balanced sequences of events are the readings of forests. -/
theorem balanced_iff_exists_passages {events : List Event} :
    balanced [] events = true ↔ ∃ passages, Passage.eventsAll passages = events := by
  constructor
  · intro h
    obtain ⟨passages, behind, hlength, hevents⟩ := exists_passages_of_balanced h
    rw [List.length_nil, List.length_eq_zero_iff] at hlength
    subst hlength
    exact ⟨passages, by rw [hevents, closings, List.zip_nil_left, List.flatMap_nil,
      List.append_nil]⟩
  · rintro ⟨passages, rfl⟩
    rw [← List.append_nil (Passage.eventsAll passages), balanced_eventsAll_append]
    rfl

end Event

end NotebookTree.Markdown
