import Mathlib.Algebra.BigOperators.Group.List.Basic
import NotebookTree.Proofs.Prose.Joining

/-!
# Events that are refused

The nesting of a sequence of events is the number of its opening events less the number of its
closing events. While events are folded into drafts, as many constructs are open as the nesting of
the events so far says: each event opens one, closes one or leaves their number as it is. So the
nesting of the beginnings of a sequence alone decides whether the sequence is refused, and why:
`Draft.ofEvents_by_nesting`.
-/

namespace NotebookTree

open Markdown (Event)

namespace Markdown.Event

/-- By how much an event changes the number of open constructs. -/
def rise : Event → Int
  | start _ => 1
  | stop _ => -1
  | _ => 0

/-- The opening events of a sequence less its closing events. -/
def nesting (events : List Event) : Int := (events.map rise).sum

/-- Does some beginning nest deeper than the limit, and none before it close what is not open? -/
def Overflows (limit : Nat) (events : List Event) : Prop :=
  ∃ before, before <+: events ∧ nesting before = limit + 1 ∧
    ∀ earlier, earlier <+: before → 0 ≤ nesting earlier

/-- Does some beginning close what is not open? -/
def Underflows (events : List Event) : Prop :=
  ∃ before, before <+: events ∧ nesting before < 0

theorem nesting_nil : nesting [] = 0 := rfl

theorem nesting_cons (event : Event) (rest : List Event) :
    nesting (event :: rest) = event.rise + nesting rest := by
  rw [nesting, List.map_cons, List.sum_cons, nesting]

theorem rise_of_isLeaf {event : Event} (h : event.isLeaf = true) : event.rise = 0 := by
  cases event <;> first | rfl | cases h

/-- What holds of the beginnings of a sequence with one more event in front. -/
theorem forall_prefix_cons_iff (holds : Int → Prop) {count : Int} {event : Event}
    {rest : List Event} :
    (∀ before, before <+: event :: rest → holds (count + nesting before)) ↔
      holds count ∧ ∀ before, before <+: rest → holds (count + event.rise + nesting before) := by
  constructor
  · intro h
    refine ⟨?_, fun before hbefore ↦ ?_⟩
    · have hnil := h [] List.nil_prefix
      rwa [nesting_nil, add_zero] at hnil
    · have hcons := h (event :: before) (List.cons_prefix_cons.2 ⟨rfl, hbefore⟩)
      rwa [nesting_cons, ← add_assoc] at hcons
  · rintro ⟨hnil, hcons⟩ before hbefore
    rcases List.prefix_cons_iff.1 hbefore with rfl | ⟨tail, rfl, htail⟩
    · rwa [nesting_nil, add_zero]
    · rw [nesting_cons, ← add_assoc]
      exact hcons tail htail

end Markdown.Event

namespace Assembly

open Markdown.Event (nesting nesting_nil nesting_cons rise_of_isLeaf forall_prefix_cons_iff)

/-! ## The stack -/

/-- The open constructs and the document around them, the innermost first. -/
def stack (a : Assembly) : List Frame := a.frames ++ [⟨.transparent, a.top⟩]

/-- Adds a draft to the innermost frame of a stack. Nothing if the stack is empty. -/
def pushOnto? (draft : Draft) : List Frame → Option (List Frame)
  | [] => none
  | frame :: rest => some (⟨frame.kind, Draft.pushMerged frame.children draft⟩ :: rest)

/-- There always is a frame to add a draft to. -/
theorem pushOnto?_stack (a : Assembly) (draft : Draft) :
    pushOnto? draft a.stack = some (a.push draft).stack := by
  unfold stack push
  cases hframes : a.frames with
  | nil => rfl
  | cons frame rest => rfl

theorem length_stack (a : Assembly) : a.stack.length = a.frames.length + 1 := by
  rw [stack, List.length_append, List.length_singleton]

theorem getLast?_stack (a : Assembly) : a.stack.getLast? = some ⟨.transparent, a.top⟩ := by
  rw [stack, List.getLast?_concat]

/-- So there is for each of several drafts. -/
theorem foldlM_pushOnto?_stack (drafts : List Draft) (a : Assembly) :
    drafts.foldlM (fun stack draft ↦ pushOnto? draft stack) a.stack =
      some (drafts.foldl push a).stack := by
  induction drafts generalizing a with
  | nil => rfl
  | cons draft rest ih =>
    rw [List.foldlM_cons, pushOnto?_stack, List.foldl_cons, ← ih]
    rfl

/-- Closing a construct takes its frame off the stack, where another frame is left, and adds what it
becomes to that one. -/
theorem exists_stack_of_leave {a a' : Assembly} (h : a.leave = .ok a') :
    ∃ frame below, a.stack = frame :: below ∧ below ≠ [] ∧
      (close frame.kind frame.children.reverse).foldlM (fun stack draft ↦ pushOnto? draft stack)
        below = some a'.stack := by
  unfold leave at h
  split at h
  · cases h
  · next frame rest hframes =>
    refine ⟨frame, rest ++ [⟨.transparent, a.top⟩], by rw [stack, hframes]; rfl, by simp, ?_⟩
    rw [← Except.ok.inj h, ← foldlM_pushOnto?_stack]
    cases frame.kind <;> rfl

/-! ## One event -/

theorem leave_of_frames_eq_nil {a : Assembly} (h : a.frames = []) :
    a.leave = .error (.markdown "unbalanced end event") := by
  rw [leave, h]

/-- A closed construct is no longer open, and what it becomes opens nothing. -/
theorem exists_leave_eq {a : Assembly} {frame : Frame} {rest : List Frame}
    (h : a.frames = frame :: rest) :
    ∃ a', a.leave = .ok a' ∧ a'.limit = a.limit ∧ a'.frames.length = rest.length := by
  rw [leave, h]
  refine ⟨_, rfl, ?_, ?_⟩
  · rw [limit_foldl_push]
    cases frame.kind <;> rfl
  · rw [length_frames_foldl_push]

/-- What one event does to the number of open constructs, or why it is refused. -/
theorem step_cases (a : Assembly) (event : Event) :
    (a.step event = .error (.tooDeep a.limit) ∧ event.rise = 1 ∧ a.limit ≤ a.frames.length) ∨
    (a.step event = .error (.markdown "unbalanced end event") ∧ event.rise = -1 ∧
      a.frames.length = 0) ∨
    ∃ a', a.step event = .ok a' ∧ a'.limit = a.limit ∧
      (a'.frames.length : Int) = a.frames.length + event.rise ∧
      (event.rise = 1 → a.frames.length < a.limit) := by
  by_cases hleaf : event.isLeaf = true
  · refine .inr (.inr ⟨_, step_of_isLeaf hleaf a, limit_foldl_push _ a, ?_, ?_⟩)
    · rw [length_frames_foldl_push, rise_of_isLeaf hleaf, add_zero]
    · intro hrise
      rw [rise_of_isLeaf hleaf] at hrise
      cases hrise
  cases event with
  | start construct =>
    rw [step, start_eq]
    by_cases hroom : a.limit ≤ a.frames.length
    · exact .inl ⟨if_pos hroom, rfl, hroom⟩
    · exact .inr (.inr ⟨_, if_neg hroom, rfl, rfl, fun _ ↦ Nat.lt_of_not_le hroom⟩)
  | stop kind =>
    -- Only the columns of tables change before the construct is closed.
    obtain ⟨before, hstop, hlimit, hframes⟩ : ∃ before : Assembly, a.stop kind = before.leave ∧
        before.limit = a.limit ∧ before.frames = a.frames := by
      cases kind <;> exact ⟨_, rfl, rfl, rfl⟩
    rw [step, hstop]
    cases hopen : a.frames with
    | nil => exact .inr (.inl ⟨leave_of_frames_eq_nil (hframes.trans hopen), rfl, rfl⟩)
    | cons frame rest =>
      obtain ⟨a', hleave, hlimit', hlength⟩ := exists_leave_eq (hframes.trans hopen)
      refine .inr (.inr ⟨a', hleave, hlimit'.trans hlimit, ?_, nofun⟩)
      rw [hlength, List.length_cons, Nat.cast_succ]
      exact (add_neg_cancel_right _ _).symm
  | _ => exact absurd rfl hleaf

/-! ## Whole sequences -/

/-- A run ends at the first beginning that nests too deep or closes what is not open, or else with
as many open constructs as the nesting says. -/
theorem foldlM_step_cases (events : List Event) (a : Assembly) (h : a.frames.length ≤ a.limit) :
    (events.foldlM step a = .error (.tooDeep a.limit) ∧
      ∃ before, before <+: events ∧ a.frames.length + nesting before = a.limit + 1 ∧
        ∀ earlier, earlier <+: before → 0 ≤ a.frames.length + nesting earlier) ∨
    (events.foldlM step a = .error (.markdown "unbalanced end event") ∧
      ∃ before, before <+: events ∧ a.frames.length + nesting before < 0 ∧
        ∀ earlier, earlier <+: before → a.frames.length + nesting earlier ≤ a.limit) ∨
    ∃ a', events.foldlM step a = .ok a' ∧
      (a'.frames.length : Int) = a.frames.length + nesting events ∧
      ∀ before, before <+: events →
        0 ≤ a.frames.length + nesting before ∧ a.frames.length + nesting before ≤ a.limit := by
  induction events generalizing a with
  | nil =>
    refine .inr (.inr ⟨a, rfl, (add_zero _).symm, fun before hbefore ↦ ?_⟩)
    rw [List.prefix_nil.1 hbefore, nesting_nil]
    omega
  | cons event rest ih =>
    rw [List.foldlM_cons]
    have hsingle : [event] <+: event :: rest := List.cons_prefix_cons.2 ⟨rfl, List.nil_prefix⟩
    rcases step_cases a event with ⟨hstep, hrise, hfull⟩ | ⟨hstep, hrise, hnone⟩ |
        ⟨next, hstep, hlimit, hlength, hroom⟩
    · refine .inl ⟨by rw [hstep]; rfl, [event], hsingle, ?_, ?_⟩
      · rw [nesting_cons, nesting_nil]
        omega
      · rw [forall_prefix_cons_iff (0 ≤ ·)]
        refine ⟨Int.natCast_nonneg _, fun earlier hearlier ↦ ?_⟩
        rw [List.prefix_nil.1 hearlier, nesting_nil]
        omega
    · refine .inr (.inl ⟨by rw [hstep]; rfl, [event], hsingle, ?_, ?_⟩)
      · rw [nesting_cons, nesting_nil]
        omega
      · rw [forall_prefix_cons_iff (· ≤ (a.limit : Int))]
        refine ⟨Int.ofNat_le.2 h, fun earlier hearlier ↦ ?_⟩
        rw [List.prefix_nil.1 hearlier, nesting_nil]
        omega
    · have hfits : next.frames.length ≤ next.limit := by
        cases event with
        | start construct => have hlt := hroom rfl; simp only [Event.rise] at hlength; omega
        | _ => simp only [Event.rise] at hlength; omega
      have hbegin {before : List Event} (hbefore : before <+: rest) :
          event :: before <+: event :: rest := List.cons_prefix_cons.2 ⟨rfl, hbefore⟩
      have hrun := ih next hfits
      rw [hlimit, hlength] at hrun
      rw [hstep]
      rcases hrun with ⟨herror, before, hbefore, hdeep, hearlier⟩ |
          ⟨herror, before, hbefore, hlow, hearlier⟩ | ⟨a', hok, hopen, hall⟩
      · refine .inl ⟨herror, event :: before, hbegin hbefore, ?_, ?_⟩
        · rwa [nesting_cons, ← add_assoc]
        · exact (forall_prefix_cons_iff (0 ≤ ·)).2 ⟨Int.natCast_nonneg _, hearlier⟩
      · refine .inr (.inl ⟨herror, event :: before, hbegin hbefore, ?_, ?_⟩)
        · rwa [nesting_cons, ← add_assoc]
        · exact (forall_prefix_cons_iff (· ≤ (a.limit : Int))).2 ⟨Int.ofNat_le.2 h, hearlier⟩
      · refine .inr (.inr ⟨a', hok, ?_, ?_⟩)
        · rw [hopen, nesting_cons, add_assoc]
        · rw [forall_prefix_cons_iff fun count ↦ 0 ≤ count ∧ count ≤ a.limit]
          exact ⟨⟨Int.natCast_nonneg _, Int.ofNat_le.2 h⟩, hall⟩

end Assembly

/-- Of two beginnings of a sequence one is a beginning of the other. So none nests too deep first if
another one closes what is not open, and does so within the limit. -/
theorem Markdown.Event.not_overflows {limit : Nat} {events before : List Event}
    (hbefore : before <+: events) (hlow : nesting before < 0)
    (hearlier : ∀ earlier, earlier <+: before → nesting earlier ≤ limit) :
    ¬Overflows limit events := by
  rintro ⟨deep, hdeep, hnesting, hnonneg⟩
  rcases List.prefix_or_prefix_of_prefix hdeep hbefore with h | h
  · have hle := hearlier deep h
    omega
  · have hle := hnonneg before h
    omega

/-- What a run from the beginning comes to. -/
theorem Draft.ofEvents_cases (limit : Nat) (events : List Event) :
    (Markdown.Event.Overflows limit events ∧
      Draft.ofEvents limit events = .error (.tooDeep limit)) ∨
    (¬Markdown.Event.Overflows limit events ∧ Markdown.Event.Underflows events ∧
      Draft.ofEvents limit events = .error (.markdown "unbalanced end event")) ∨
    (¬Markdown.Event.Overflows limit events ∧ ¬Markdown.Event.Underflows events ∧
      ∃ a : Assembly, events.foldlM Assembly.step (Assembly.empty limit) = .ok a ∧
        (a.frames.length : Int) = Markdown.Event.nesting events ∧
        Draft.ofEvents limit events = a.finish) := by
  have hrun := Assembly.foldlM_step_cases events (Assembly.empty limit) (Nat.zero_le _)
  simp only [Assembly.empty, List.length_nil, Nat.cast_zero, zero_add] at hrun
  unfold Draft.ofEvents Assembly.empty
  rcases hrun with ⟨herror, hdeep⟩ | ⟨herror, before, hbefore, hlow, hearlier⟩ |
      ⟨a, hok, hopen, hall⟩
  · exact .inl ⟨hdeep, by rw [herror]; rfl⟩
  · refine .inr (.inl ⟨?_, ⟨before, hbefore, hlow⟩, by rw [herror]; rfl⟩)
    exact Markdown.Event.not_overflows hbefore hlow hearlier
  · refine .inr (.inr ⟨?_, ?_, a, hok, hopen, by rw [hok]; rfl⟩)
    · rintro ⟨before, hbefore, hdeep, -⟩
      have hle := (hall before hbefore).2
      omega
    · rintro ⟨before, hbefore, hlow⟩
      have hle := (hall before hbefore).1
      omega

/-- The nesting of the beginnings of a sequence decides whether it is refused. Some beginning nests
too deep before any closes what is not open, or else one closes what is not open, or else something
is left open, or else there are drafts. At each point the stack is the document with one frame for
each construct that is open, and there is a frame to add a draft to, also when a construct has just
been closed. -/
theorem Draft.ofEvents_by_nesting (limit : Nat) (events : List Event) :
    (Draft.ofEvents limit events = .error (.tooDeep limit) ↔
      Markdown.Event.Overflows limit events) ∧
    (¬Markdown.Event.Overflows limit events →
      (Markdown.Event.Underflows events →
        Draft.ofEvents limit events = .error (.markdown "unbalanced end event")) ∧
      (¬Markdown.Event.Underflows events → Markdown.Event.nesting events ≠ 0 →
        Draft.ofEvents limit events = .error (.markdown
          (toString (Markdown.Event.nesting events).toNat ++
            " unclosed block(s) at end of input"))) ∧
      (¬Markdown.Event.Underflows events → Markdown.Event.nesting events = 0 →
        ∃ drafts, Draft.ofEvents limit events = .ok drafts)) ∧
    (∀ before a, before <+: events →
      before.foldlM Assembly.step (Assembly.empty limit) = .ok a →
        (a.stack.length : Int) = Markdown.Event.nesting before + 1 ∧
        a.stack.getLast? = some ⟨.transparent, a.top⟩) ∧
    (∀ (a : Assembly) (draft : Draft),
      Assembly.pushOnto? draft a.stack = some (a.push draft).stack) ∧
    ∀ a a' : Assembly, a.leave = .ok a' → ∃ frame below, a.stack = frame :: below ∧ below ≠ [] ∧
      (Assembly.close frame.kind frame.children.reverse).foldlM
        (fun stack draft ↦ Assembly.pushOnto? draft stack) below = some a'.stack := by
  refine ⟨?_, ?_, ?_, Assembly.pushOnto?_stack, fun _ _ ↦ Assembly.exists_stack_of_leave⟩
  · rcases Draft.ofEvents_cases limit events with ⟨hover, herror⟩ | ⟨hover, -, herror⟩ |
        ⟨hover, -, a, -, -, hfinish⟩
    · exact iff_of_true herror hover
    · exact iff_of_false (by simp [herror]) hover
    · refine iff_of_false ?_ hover
      rw [hfinish, Assembly.finish]
      split <;> simp
  · intro hover
    rcases Draft.ofEvents_cases limit events with ⟨hover', -⟩ | ⟨-, hunder, herror⟩ |
        ⟨-, hunder, a, -, hopen, hfinish⟩
    · exact absurd hover' hover
    · exact ⟨fun _ ↦ herror, fun h ↦ absurd hunder h, fun h ↦ absurd hunder h⟩
    · have hcount : (Markdown.Event.nesting events).toNat = a.frames.length := by omega
      refine ⟨fun h ↦ absurd h hunder, fun _ hne ↦ ?_, fun _ hzero ↦ ?_⟩
      · have hframes : ¬a.frames.isEmpty = true := by
          rw [List.isEmpty_iff_length_eq_zero]
          omega
        rw [hfinish, Assembly.finish, if_neg hframes, hcount]
      · have hframes : a.frames.isEmpty = true := by
          rw [List.isEmpty_iff_length_eq_zero]
          omega
        exact ⟨a.top.reverse, by rw [hfinish, Assembly.finish, if_pos hframes]⟩
  · intro before a hbefore hfold
    refine ⟨?_, Assembly.getLast?_stack a⟩
    rw [Assembly.length_stack, Nat.cast_succ]
    rcases Assembly.foldlM_step_cases before (Assembly.empty limit) (Nat.zero_le _) with
      ⟨herror, -⟩ | ⟨herror, -⟩ | ⟨a', hok, hopen, -⟩
    · exact nomatch hfold.symm.trans herror
    · exact nomatch hfold.symm.trans herror
    · cases hfold.symm.trans hok
      rw [hopen]
      exact congrArg (· + 1) (zero_add _)

end NotebookTree
