import ZMachine.Proofs.Stages
import ZMachine.Session

/-!
# Sessions and their machines

A session steps its machine and hands the notes on; nothing of that flows back to the machine, and the number of completed
instructions never goes down.

* `Machine.executed_step`, `Machine.executed_after_le`, `Machine.executed_mono`: the number of completed instructions;
* `Session.machine_step`, `Session.machine_advance`: a session takes the steps of its machine;
* `Session.step_recorded`: what a recorder receives of a step;
* `Session.after`, `Session.machine_after`, `Session.recorded_after`: a session after a number of steps, its machine, and
  what a recorder has received by then;
* `Session.unlogged`, `Session.unlogged_after`: a session but for its log, on which its steps do not depend.
-/

namespace ZMachine

/-! ### The number of completed instructions -/

namespace Machine

variable {m m' : Machine} {value : UInt16}

theorem executed_of_sets (h : m.Sets value m') : m'.executed = m.executed := by
  cases h <;> rfl

theorem executed_of_put? {object : UInt16} {property : UInt8} (h : m.put? object property value = .ok m') :
    m'.executed = m.executed := by
  unfold put? at h
  split at h
  · obtain ⟨memory, -, rfl⟩ := map_eq_ok_iff.1 h
    rfl
  · cases h
    rfl

theorem executed_leave (m : Machine) (value : UInt16) : (m.leave value).machine.executed = m.executed := by
  unfold leave
  split
  · rfl
  · next m' hc _ => rw [(caller?_eq_some hc).2]
  · next m' number hc _ =>
    have hm' : m'.executed = m.executed := by rw [(caller?_eq_some hc).2]
    refine Report.attempt_machine (P := fun m₁ => m₁.executed = m.executed) hm' fun m₁ hw => ?_
    rw [executed_of_sets (sets_of_write? hw), hm']

/-- An effect counts nothing. -/
theorem executed_apply (e : Effect) (m : Machine) : (e.apply m).machine.executed = m.executed := by
  have attempted : ∀ {events : List Event} {change : Except Fault Machine},
      (∀ m', change = .ok m' → m'.executed = m.executed) →
      (Report.attempt m events change).machine.executed = m.executed :=
    fun h => Report.attempt_machine (P := fun m' => m'.executed = m.executed) rfl h
  cases e with
  | nothing | jump pc | fail fault => rfl
  | push value | store target value => exact attempted fun m' hw => executed_of_sets (sets_of_write? hw)
  | assign target value => exact attempted fun m' hw => executed_of_sets (sets_of_assign? hw)
  | writeByte address byte | writeWord address word =>
    refine attempted fun m' hw => ?_
    obtain ⟨memory, -, rfl⟩ := map_eq_ok_iff.1 hw
    rfl
  | putProperty object property value => exact attempted fun m' hp => executed_of_put? hp
  | enter routine arguments returnStore =>
    show (m.enter routine arguments returnStore).machine.executed = m.executed
    unfold enter
    split
    · next m' hm =>
      obtain ⟨frame, start, -, -, hm'⟩ := enter?_eq_ok hm
      rw [hm']
    · rfl
  | leave value => exact executed_leave m value
  | pull target =>
    refine pop_andThen_keeps (P := fun m' => m'.executed = m.executed) rfl rfl fun value m' hm' => ?_
    refine Report.attempt_machine (P := fun m₁ => m₁.executed = m.executed) hm' fun m₁ hw => ?_
    rw [executed_of_sets (sets_of_assign? hw), hm']
  | leavePopped =>
    refine pop_andThen_keeps (P := fun m' => m'.executed = m.executed) rfl rfl fun value m' hm' => ?_
    rw [executed_leave, hm']

/-- A step that succeeds counts as one, a step that fails does not count. -/
theorem executed_step (m : Machine) :
    m.step.machine.executed = m.executed + if m.step.result.isOk then 1 else 0 := by
  show m.step.report.machine.executed = m.executed + if m.step.report.result.isOk then 1 else 0
  rcases m.step_cases with ⟨fault, -, hs⟩ | ⟨fault, n, -, -, hs⟩ | ⟨i, op, values, m₁, hp⟩
  · rw [hs]
    rfl
  · rw [hs]
    rfl
  · have hm₁ : m₁.executed = m.executed := by
      obtain ⟨n, -, rfl⟩ := hp.machine_eq
      rfl
    have he := executed_apply (Effect.of m₁ op i values) m₁
    rcases ha : (Effect.of m₁ op i values).apply m₁ with ⟨fault | ⟨⟩, m₂, events⟩
    · rw [ha] at he
      rw [hp.step_error ha]
      exact he.trans hm₁
    · rw [ha] at he
      rw [hp.step_ok ha]
      show m₂.executed + 1 = m.executed + 1
      rw [← hm₁, ← he]

theorem executed_step_bounds (m : Machine) :
    m.executed ≤ m.step.machine.executed ∧ m.step.machine.executed ≤ m.executed + 1 := by
  rw [executed_step]
  split <;> omega

theorem executed_after_le (m : Machine) (n : Nat) : (m.after n).executed ≤ m.executed + n := by
  induction n with
  | zero => exact Nat.le_refl _
  | succ n ih =>
    have hstep := (m.after n).executed_step_bounds.2
    show (m.after n).step.machine.executed ≤ m.executed + (n + 1)
    omega

theorem executed_mono (m : Machine) (n : Nat) : m.executed ≤ (m.after n).executed := by
  induction n with
  | zero => exact Nat.le_refl _
  | succ n ih => exact Nat.le_trans ih (m.after n).executed_step_bounds.1

theorem after_step (m : Machine) (n : Nat) : m.step.machine.after n = m.after (n + 1) := by
  induction n with
  | zero => rfl
  | succ n ih =>
    show (m.step.machine.after n).step.machine = (m.after (n + 1)).step.machine
    rw [ih]

end Machine

/-! ### Steps of a session -/

namespace Session

variable {s : Session}

@[simp]
theorem machine_say (s : Session) (message : Diagnostic) : (s.say message).machine = s.machine := by
  unfold say
  split <;> rfl

@[simp]
theorem observer_say (s : Session) (message : Diagnostic) : (s.say message).observer = s.observer := by
  unfold say
  split <;> rfl

@[simp]
theorem recorded_say (s : Session) (message : Diagnostic) : (s.say message).recorded = s.recorded := by
  unfold say
  split <;> rfl

@[simp]
theorem machine_take (s : Session) (note : Note) : (s.take note).machine = s.machine := by
  cases note with
  | log message => exact s.machine_say message
  | event event =>
    show (s.observe event).machine = s.machine
    unfold observe
    split
    · rfl
    · rfl
    · exact machine_say _ _

theorem machine_foldl_take (s : Session) (notes : List Note) : (notes.foldl take s).machine = s.machine := by
  induction notes generalizing s with
  | nil => rfl
  | cons note notes ih => exact (ih (s.take note)).trans (s.machine_take note)

/-- A step of a session is a step of its machine, whoever watches. -/
theorem machine_step (s : Session) :
    s.step.1 = s.machine.step.result ∧ s.step.2.machine = s.machine.step.machine :=
  ⟨rfl, machine_foldl_take { s with machine := s.machine.step.machine } s.machine.step.notes⟩

/-- A session that goes on takes steps of its machine, no more of them than its budget allows. -/
theorem machine_advance (s : Session) (budget : Nat) :
    ∃ n, n ≤ budget ∧ (s.advance budget).2.machine = s.machine.after n := by
  induction budget generalizing s with
  | zero => exact ⟨0, Nat.le_refl 0, rfl⟩
  | succ budget ih =>
    have hm := s.machine_step.2
    unfold advance
    split
    · next s' hs =>
      obtain ⟨n, hn, hadvance⟩ := ih s'
      rw [hs] at hm
      refine ⟨n + 1, Nat.succ_le_succ hn, ?_⟩
      rw [hadvance, hm, Machine.after_step]
    · next s' hs =>
      rw [hs] at hm
      exact ⟨1, by omega, hm⟩
    · next failure s' hs =>
      rw [hs] at hm
      exact ⟨1, by omega, hm⟩

/-! ### What a recorder receives -/

theorem take_recorder (h : s.observer = .recorder) (note : Note) :
    (s.take note).observer = .recorder ∧ (s.take note).recorded = s.recorded ++ note.event?.toList := by
  cases note with
  | log message => exact ⟨(s.observer_say message).trans h, by simp [take, Note.event?]⟩
  | event event =>
    have ht : s.take (.event event) = { s with recorded := s.recorded.push event } := by rw [take, observe, h]
    rw [ht]
    exact ⟨h, by simp [Note.event?]⟩

/-- A recorder keeps the events among the notes, in their order. -/
theorem foldl_take_recorder (h : s.observer = .recorder) (notes : List Note) :
    (notes.foldl take s).recorded = s.recorded ++ notes.filterMap Note.event? := by
  induction notes generalizing s with
  | nil => simp
  | cons note notes ih =>
    obtain ⟨ho, hr⟩ := take_recorder h note
    refine (ih ho).trans ?_
    rw [hr]
    cases hn : note.event? <;> simp [hn]

theorem step_recorded (h : s.observer = .recorder) : s.step.2.recorded = s.recorded ++ s.machine.step.events :=
  foldl_take_recorder (s := { s with machine := s.machine.step.machine }) h s.machine.step.notes

theorem step_recorder (h : s.observer = .recorder) : s.step.2.observer = .recorder := by
  have stays : ∀ (notes : List Note) (t : Session), t.observer = .recorder → (notes.foldl take t).observer = .recorder := by
    intro notes
    induction notes with
    | nil => exact fun t ht => ht
    | cons note notes ih => exact fun t ht => ih (t.take note) (take_recorder ht note).1
  exact stays s.machine.step.notes { s with machine := s.machine.step.machine } h

theorem take_not_recorder (h : s.observer ≠ .recorder) (note : Note) :
    (s.take note).observer ≠ .recorder ∧ (s.take note).recorded = s.recorded := by
  cases note with
  | log message => exact ⟨by rwa [take, observer_say], s.recorded_say message⟩
  | event event =>
    show (s.observe event).observer ≠ .recorder ∧ (s.observe event).recorded = s.recorded
    unfold observe
    split
    · exact ⟨h, rfl⟩
    · next ho => exact absurd ho h
    · exact ⟨by rw [observer_say]; nofun, recorded_say _ _⟩

/-- Without a recorder in place nothing is kept. -/
theorem step_not_recorder (h : s.observer ≠ .recorder) :
    s.step.2.observer ≠ .recorder ∧ s.step.2.recorded = s.recorded := by
  have stays : ∀ (notes : List Note) (t : Session), t.observer ≠ .recorder →
      (notes.foldl take t).observer ≠ .recorder ∧ (notes.foldl take t).recorded = t.recorded := by
    intro notes
    induction notes with
    | nil => exact fun t ht => ⟨ht, rfl⟩
    | cons note notes ih =>
      intro t ht
      obtain ⟨hobserver, hrecorded⟩ := take_not_recorder ht note
      obtain ⟨hobserver', hrecorded'⟩ := ih (t.take note) hobserver
      exact ⟨hobserver', hrecorded'.trans hrecorded⟩
  exact stays s.machine.step.notes { s with machine := s.machine.step.machine } h

end Session

/-! ### Sessions after a number of steps -/

/-- The events of the first steps of a machine, in their order. -/
def Machine.history (m : Machine) : Nat → List Event
  | 0 => []
  | n + 1 => m.history n ++ (m.after n).step.events

namespace Session

variable {s : Session}

/-- The session after a number of steps, whatever each of them came to. -/
def after (s : Session) : Nat → Session
  | 0 => s
  | n + 1 => (s.after n).step.2

theorem machine_after (s : Session) (n : Nat) : (s.after n).machine = s.machine.after n := by
  induction n with
  | zero => rfl
  | succ n ih =>
    show (s.after n).step.2.machine = (s.machine.after n).step.machine
    rw [(s.after n).machine_step.2, ih]

/-- What the next step comes to is up to the machine. -/
theorem result_after (s : Session) (n : Nat) : (s.after n).step.1 = (s.machine.after n).step.result := by
  rw [(s.after n).machine_step.1, machine_after]

theorem after_recorder (h : s.observer = .recorder) (n : Nat) : (s.after n).observer = .recorder := by
  induction n with
  | zero => exact h
  | succ n ih => exact step_recorder ih

/-- A recorder has received the events of all steps. -/
theorem recorded_after (h : s.observer = .recorder) (n : Nat) :
    (s.after n).recorded.toList = s.recorded.toList ++ s.machine.history n := by
  induction n with
  | zero => simp [after, Machine.history]
  | succ n ih =>
    show (s.after n).step.2.recorded.toList = _
    rw [step_recorded (after_recorder h n), Array.toList_appendList, ih, machine_after, Machine.history,
      List.append_assoc]

theorem after_not_recorder (h : s.observer ≠ .recorder) (n : Nat) :
    (s.after n).observer ≠ .recorder ∧ (s.after n).recorded = s.recorded := by
  induction n with
  | zero => exact ⟨h, rfl⟩
  | succ n ih =>
    obtain ⟨hobserver, hrecorded⟩ := step_not_recorder ih.1
    exact ⟨hobserver, hrecorded.trans ih.2⟩

/-! ### The log left aside -/

/-- The session with nothing in its log. -/
def unlogged (s : Session) : Session :=
  { s with log := #[] }

@[simp]
theorem machine_unlogged (s : Session) : s.unlogged.machine = s.machine := rfl

@[simp]
theorem observer_unlogged (s : Session) : s.unlogged.observer = s.observer := rfl

@[simp]
theorem recorded_unlogged (s : Session) : s.unlogged.recorded = s.recorded := rfl

@[simp]
theorem unlogged_say (s : Session) (message : Diagnostic) : (s.say message).unlogged = s.unlogged := by
  unfold say
  split <;> rfl

theorem unlogged_dismiss (s : Session) (observer : Observer) : (s.dismiss observer).unlogged = s.unlogged := by
  cases observer with
  | silent | recorder => rfl
  | writer seen => exact s.unlogged_say _

theorem unlogged_watch (s : Session) (observer : Observer) :
    (s.watch observer).unlogged = { s.unlogged with observer } := by
  unfold watch
  rw [unlogged_dismiss]
  cases observer with
  | silent | recorder => rfl
  | writer seen => exact unlogged_say _ _

theorem unlogged_start (m : Machine) (threshold : Option Level) :
    (start m threshold).unlogged = ⟨m, .silent, #[], threshold, #[]⟩ := by
  have reported : ∀ (problems : List String) (s : Session),
      (problems.foldl (fun s problem => s.say (.tableProblem problem)) s).unlogged = s.unlogged := by
    intro problems
    induction problems with
    | nil => exact fun s => rfl
    | cons problem problems ih => exact fun s => (ih _).trans (s.unlogged_say _)
  exact (reported _ _).trans (unlogged_say _ _)

theorem unlogged_take (s : Session) (note : Note) : (s.take note).unlogged = (s.unlogged.take note).unlogged := by
  cases note with
  | log message =>
    rw [take, take, unlogged_say, unlogged_say]
    rfl
  | event event =>
    show (s.observe event).unlogged = (s.unlogged.observe event).unlogged
    unfold observe
    rw [observer_unlogged]
    cases s.observer with
    | silent | recorder => rfl
    | writer seen =>
      dsimp only
      rw [unlogged_say, unlogged_say]
      rfl

theorem unlogged_foldl_take (s : Session) (notes : List Note) :
    (notes.foldl take s).unlogged = (notes.foldl take s.unlogged).unlogged := by
  induction notes generalizing s with
  | nil => rfl
  | cons note notes ih =>
    show (notes.foldl take (s.take note)).unlogged = (notes.foldl take (s.unlogged.take note)).unlogged
    rw [ih, unlogged_take, ← ih]

theorem unlogged_step (s : Session) : s.step.2.unlogged = s.unlogged.step.2.unlogged :=
  unlogged_foldl_take { s with machine := s.machine.step.machine } s.machine.step.notes

/-- The log makes no difference to the steps of a session. -/
theorem unlogged_after (s : Session) (n : Nat) : (s.after n).unlogged = (s.unlogged.after n).unlogged := by
  induction n with
  | zero => rfl
  | succ n ih =>
    show (s.after n).step.2.unlogged = (s.unlogged.after n).step.2.unlogged
    rw [unlogged_step, ih, ← unlogged_step]

end Session

end ZMachine
