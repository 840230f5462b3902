import ZMachine.Proofs.Bracketing
import ZMachine.Proofs.Session

/-!
# The calls that a trace leaves open

The entries and returns of a trace are brackets.  Read from the start of a story, they never go wrong, and those that are
open at any time are the frames of the call stack, so that a recorder knows the call stack without ever looking at it.

* `OpenCall`, `Event.bracket`, `Event.openCalls`: reading a trace as brackets;
* `CallStack.openCalls`, `CallStack.Nests`: events that lead from one call stack to another when they are read so;
* `Effect.nests`: the events of an effect;
* `Machine.nests_step`, `Machine.nests_history`: those of a step and of a run;
* `Session.trace_reconstructs_calls`: what a recorder can tell from its trace.
-/

namespace ZMachine

/-! ### Reading a trace as brackets -/

/-- A routine that has been entered and not yet been left. -/
structure OpenCall where
  routine : UInt32
  returnPc : UInt32
deriving DecidableEq, Repr

/-- The call that a frame belongs to. -/
def Frame.call (f : Frame) : OpenCall :=
  ⟨f.routine, f.returnPc⟩

namespace Event

/-- The given calls are open after an event that gives the depth; the outermost frame counts, but belongs to no call. -/
def atDepth (depth : Nat) (calls : List OpenCall) : Option (List OpenCall) :=
  if depth = 1 + calls.length then some calls else none

/-- Read an event when calls are open, the innermost first.  An entry opens a call.  A return closes the innermost one,
which has to be one that goes on where the event says.  No other event is a bracket. -/
def bracket (calls : List OpenCall) : Event → Option (List OpenCall)
  | .entered routine returnPc depth _ => atDepth depth (⟨routine, returnPc⟩ :: calls)
  | .left depth _ returnPc =>
    match calls with
    | [] => none
    | call :: calls => if call.returnPc = returnPc then atDepth depth calls else none
  | .decoded .. | .stored .. => some calls

/-- The calls that are open at the end of a trace, the innermost first, if all its brackets are right. -/
def openCalls (events : List Event) : Option (List OpenCall) :=
  events.foldlM bracket []

end Event

/-! ### The calls of a call stack -/

namespace CallStack

variable {c c' c'' : CallStack} {frame : Frame} {events events' : List Event}

/-- The calls of all frames but the outermost one, the innermost first. -/
def openCalls (c : CallStack) : List OpenCall :=
  ((c.frames.map Frame.call).drop 1).reverse

@[simp]
theorem openCalls_start : start.openCalls = [] := rfl

/-- One call for each frame but the outermost. -/
theorem depth_eq_openCalls (c : CallStack) : c.depth = 1 + c.openCalls.length := by
  have hpos : 0 < c.depth := Nat.succ_pos _
  simp only [openCalls, List.length_reverse, List.length_drop, List.length_map, length_frames]
  omega

theorem openCalls_of_within (h : c.Within c') : c'.openCalls = c.openCalls := by
  have hcall : c'.current.call = c.current.call := by
    simp only [Frame.call, h.same.routine, h.same.returnPc]
  simp only [openCalls, frames_eq, List.map_append, List.map_cons, List.map_nil, h.callers, hcall]

theorem openCalls_of_frames (h : c'.frames = c.frames ++ [frame]) : c'.openCalls = frame.call :: c.openCalls := by
  have hne : 1 ≤ (c.frames.map Frame.call).length := by
    rw [List.length_map, length_frames]
    exact Nat.succ_pos _
  rw [openCalls, h, List.map_append, List.drop_append_of_le_length hne, List.reverse_append]
  rfl

/-- Read as brackets, the events lead from the calls of one call stack to those of another. -/
def Nests (c : CallStack) (events : List Event) (c' : CallStack) : Prop :=
  events.foldlM Event.bracket c.openCalls = some c'.openCalls

theorem Nests.append (h : c.Nests events c') (h' : c'.Nests events' c'') : c.Nests (events ++ events') c'' := by
  unfold Nests
  rw [List.foldlM_append, h]
  exact h'

theorem nests_nil (h : c.Within c') : c.Nests [] c' := by
  rw [Nests, openCalls_of_within h]
  rfl

theorem nests_decoded (i : Instruction) (op : Operation) (values : List UInt16) (c : CallStack) :
    c.Nests [.decoded i op values] c := rfl

theorem nests_stored (h : c.Within c') (target : Variable) (value : UInt16) : c.Nests [.stored target value] c' := by
  rw [Nests, openCalls_of_within h]
  rfl

theorem nests_entered (h : c.push frame = .ok c') (locals : List UInt16) :
    c.Nests [.entered frame.routine frame.returnPc c'.depth locals] c' := by
  have hcalls := openCalls_of_frames (frames_push h)
  have hdepth := c'.depth_eq_openCalls
  rw [hcalls] at hdepth
  have hbracket : Event.bracket c.openCalls (.entered frame.routine frame.returnPc c'.depth locals) =
      some (frame.call :: c.openCalls) := if_pos hdepth
  rw [Nests, hcalls, List.foldlM_cons, hbracket]
  rfl

theorem nests_left (h : c.callers = c'.current :: c'.callers) (value : UInt16) :
    c.Nests [.left c'.depth value c.current.returnPc] c' := by
  have hcalls := openCalls_of_frames (frames_pop h)
  have hbracket : Event.bracket c.openCalls (.left c'.depth value c.current.returnPc) = some c'.openCalls := by
    rw [hcalls]
    exact (if_pos rfl).trans (if_pos c'.depth_eq_openCalls)
  rw [Nests, List.foldlM_cons, hbracket]
  rfl

end CallStack

/-! ### The events of a step -/

namespace Machine

variable {m m' : Machine} {value : UInt16} {events : List Event}

/-- A return closes the call of the frame it leaves, whether its value is stored or not. -/
theorem nests_leave (h : m.leave value = ⟨.ok (), m', events⟩) : m.calls.Nests events m'.calls := by
  unfold leave at h
  split at h
  · cases h
  · next hc _ =>
    cases h
    obtain ⟨hpop, hm'⟩ := caller?_eq_some hc
    have hpc : m'.pc = m.calls.current.returnPc := by rw [hm']
    rw [hpc]
    exact CallStack.nests_left hpop value
  · next caller number hc _ =>
    obtain ⟨hstore, rfl⟩ := Report.attempt_eq_ok h
    obtain ⟨hpop, hcaller⟩ := caller?_eq_some hc
    have hpc : caller.pc = m.calls.current.returnPc := by rw [hcaller]
    have hwithin := within_of_sets (sets_of_write? hstore)
    -- the value is stored when the frame is gone, but a store is no bracket and may as well come first
    have hstored := CallStack.nests_stored (.refl m.calls) (.ofNumber number) value
    rw [hpc]
    exact (hstored.append (CallStack.nests_left hpop value)).append (CallStack.nests_nil hwithin)

end Machine

/-- **Read as brackets, the events of an effect lead to the frames it leaves.** -/
theorem Effect.nests {e : Effect} {m m' : Machine} {events : List Event} (h : e.apply m = ⟨.ok (), m', events⟩) :
    m.calls.Nests events m'.calls := by
  cases e with
  | nothing | jump pc =>
    cases h
    exact CallStack.nests_nil (.refl _)
  | fail fault => cases h
  | push value =>
    obtain ⟨hw, rfl⟩ := Report.attempt_eq_ok h
    exact CallStack.nests_nil (Machine.within_of_sets (Machine.sets_of_write? hw))
  | store target value =>
    obtain ⟨hw, rfl⟩ := Report.attempt_eq_ok h
    exact CallStack.nests_stored (Machine.within_of_sets (Machine.sets_of_write? hw)) target value
  | assign target value =>
    obtain ⟨hw, rfl⟩ := Report.attempt_eq_ok h
    exact CallStack.nests_stored (Machine.within_of_sets (Machine.sets_of_assign? hw)) target value
  | pull target =>
    rcases m.pop_cases with ⟨hp, -⟩ | ⟨value, rest, -, hp⟩
    · simp [Effect.apply, hp] at h
    · simp only [Effect.apply, hp, Report.andThen_ok, List.nil_append] at h
      obtain ⟨hw, rfl⟩ := Report.attempt_eq_ok h
      have hwithin := Machine.within_of_sets (Machine.sets_of_assign? hw)
      exact CallStack.nests_stored ((CallStack.within_discard m.calls 1).trans hwithin) target value
  | writeByte address byte | writeWord address word =>
    obtain ⟨hw, rfl⟩ := Report.attempt_eq_ok h
    obtain ⟨memory, -, rfl⟩ := map_eq_ok_iff.1 hw
    exact CallStack.nests_nil (.refl _)
  | putProperty object property value =>
    obtain ⟨hp, rfl⟩ := Report.attempt_eq_ok h
    rw [Machine.calls_of_put? hp]
    exact CallStack.nests_nil (.refl _)
  | enter routine arguments returnStore =>
    have hm := Machine.enter_eq_ok h
    obtain ⟨frame, start, -, hpush, -⟩ := Machine.enter?_eq_ok hm
    obtain rfl : events = [m'.entry] := by
      have : m.enter routine arguments returnStore = ⟨.ok (), m', [m'.entry]⟩ := by rw [Machine.enter, hm]
      exact (congrArg Report.events (this.symm.trans h)).symm
    have hcurrent : m'.calls.current = frame := by rw [(CallStack.push_eq_ok_iff.1 hpush).2]
    rw [Machine.entry, hcurrent]
    exact CallStack.nests_entered hpush _
  | leave value => exact Machine.nests_leave h
  | leavePopped =>
    rcases m.pop_cases with ⟨hp, -⟩ | ⟨value, rest, -, hp⟩
    · simp [Effect.apply, hp] at h
    · simp only [Effect.apply, hp, Report.andThen_ok, List.nil_append] at h
      exact (CallStack.nests_nil (CallStack.within_discard m.calls 1)).append (Machine.nests_leave h)

namespace Machine

variable {m : Machine}

/-- Read as brackets, the events of a step that succeeds lead to the frames it leaves. -/
theorem nests_step (hok : m.step.result.isOk) : m.calls.Nests m.step.events m.step.machine.calls := by
  obtain ⟨i, op, values, m₁, hp⟩ := performs_of_isOk hok
  obtain ⟨m₂, events, ha, hstep⟩ := hp.apply_of_isOk hok
  have hevents : m.step.events = [.decoded i op values] ++ events := congrArg Report.events (hp.step_ok ha)
  have hread : m.calls.Nests [] m₁.calls := CallStack.nests_nil hp.within
  rw [hevents, hstep]
  have happly : m₁.calls.Nests events m₂.calls := Effect.nests ha
  exact (hread.append (CallStack.nests_decoded i op values _)).append happly

/-- Read as brackets, the events of a run of successful steps lead to the frames it leaves. -/
theorem nests_history {n : Nat} (hok : ∀ k, k < n → (m.after k).step.result.isOk) :
    m.calls.Nests (m.history n) (m.after n).calls := by
  induction n with
  | zero => exact CallStack.nests_nil (.refl _)
  | succ n ih =>
    have hrun := ih fun k hk => hok k (Nat.lt_succ_of_lt hk)
    exact hrun.append (nests_step (hok n (Nat.lt_succ_self n)))

end Machine

/-! ### What a recorder can tell -/

namespace Session

variable {m : Machine}

/-- A session with a recorder in place from the start. -/
def recording (m : Machine) (threshold : Option Level) : Session :=
  (start m threshold).watch .recorder

theorem unlogged_recording (m : Machine) (threshold : Option Level) :
    (recording m threshold).unlogged = ⟨m, .recorder, #[], threshold, #[]⟩ := by
  rw [recording, unlogged_watch, unlogged_start]

/-- **The trace reconstructs the call stack.**  Take any run of successful steps of a story, with a recorder that has been
there from the start.  Read as brackets, its trace is right: every return closes the call that goes on where the return
says, and entries and returns alike give the depth that the open calls come to.  And the calls that are open at the end
are, in their order, the frames of the call stack but for the outermost. -/
theorem trace_reconstructs_calls {bytes : Array UInt8} (hload : Machine.load bytes = .ok m) (threshold : Option Level)
    {n : Nat} (hok : ∀ k, k < n → ((recording m threshold).after k).step.1.isOk) :
    ∃ calls, Event.openCalls ((recording m threshold).after n).recorded.toList = some calls ∧
      calls.reverse = (((recording m threshold).after n).machine.calls.frames.drop 1).map Frame.call := by
  have hstart := unlogged_recording m threshold
  have hmachine : (recording m threshold).machine = m := by rw [← machine_unlogged, hstart]
  have hobserver : (recording m threshold).observer = .recorder := by rw [← observer_unlogged, hstart]
  have hrecorded : (recording m threshold).recorded = #[] := by rw [← recorded_unlogged, hstart]
  have hcalls : m.calls = .start := by rw [(Machine.load_spec hload).1]; rfl
  have hsteps : ∀ k, k < n → (m.after k).step.result.isOk := by
    intro k hk
    have := hok k hk
    rw [result_after, hmachine] at this
    exact this
  have hnests := Machine.nests_history hsteps
  rw [CallStack.Nests, hcalls, CallStack.openCalls_start] at hnests
  refine ⟨(m.after n).calls.openCalls, ?_, ?_⟩
  · rw [recorded_after hobserver, hrecorded, hmachine]
    exact hnests
  · rw [machine_after, hmachine, CallStack.openCalls, List.reverse_reverse, List.map_drop]

/-- A story that calls address 0, and then a routine that calls another one, which returns by a branch. -/
def visits : Array UInt8 :=
  #[3, 0, 0, 1, 0, 34, 0, 34, 0, 34, 0, 34, 0, 16, 0, 34, 0, 0, 48, 48, 48, 48, 48, 48, 0, 34, 0, 0, 0, 0, 0, 0, 0, 0,
    0xE0, 0x3F, 0x00, 0x00, 0x10, 0xE0, 0x3F, 0x00, 0x18, 0x00, 0xBA, 0xBA, 0xBA, 0xBA,
    0x00, 0xE0, 0x3F, 0x00, 0x1C, 0x00, 0xB0, 0xBA, 0x01, 0x00, 0x05, 0x41, 0x01, 0x05, 0xC1]

theorem visits_trace :
    ∃ m, Machine.load visits = .ok m ∧
      Event.openCalls ((recording m none).after 3).recorded.toList = some [⟨56, 54⟩, ⟨48, 44⟩] ∧
      ((recording m none).after 4).recorded.toList.drop 6 =
        [.decoded ⟨59, 0x41, 1, .long, .two, [.var (.localSlot 0), .small 5], none, some ⟨true, 1⟩, 63⟩ .je [5, 5],
          .stored .stack 1, .left 2 1 54] ∧
      ∃ calls, Event.openCalls ((recording m none).after 4).recorded.toList = some calls ∧
        calls.reverse = (((recording m none).after 4).machine.calls.frames.drop 1).map Frame.call :=
  ⟨_, rfl, rfl, rfl, trace_reconstructs_calls (show Machine.load visits = _ from rfl) none (by decide)⟩

end Session

end ZMachine
