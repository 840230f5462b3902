import ZMachine.Proofs.Origin

/-!
# The damage of a failing step

A step that fails leaves everything but the frames as it was.  Of the frames, it may have taken values off the current
evaluation stack, or have left the current routine before the value it returns could be stored.

* `Machine.Performs.failed`: what an operation that fails leaves;
* `Machine.ReturnRejected`: a return whose value the caller cannot store;
* `Machine.Performs.unwinds`, `Machine.step_failed`: the cases of a step that fails;
* `Machine.damage_of_failing_step`: the whole account.
-/

namespace ZMachine

namespace Machine

variable {m m' m'' : Machine} {i : Instruction} {op : Operation} {values : List UInt16} {fault : Fault}
  {events events' : List Event}

/-! ### Operations that fail -/

theorem attempt_failed {change : Except Fault Machine} (hc : PastDecoding change)
    (h : Report.attempt m events change = ⟨.error fault, m', events'⟩) : fault.isMalformed = false ∧ m' = m := by
  obtain ⟨hf, hm, -⟩ := Report.attempt_eq_error h
  exact ⟨hc fault hf, hm⟩

/-- A return fails with the frame still there, or with the frame gone and a value that the caller cannot store. -/
theorem leave_failed {value : UInt16} (h : m.leave value = ⟨.error fault, m', events⟩) :
    fault.isMalformed = false ∧
      (m' = m ∨ ∃ number, m.caller? = some m' ∧ m.calls.current.returnStore = some number ∧
        m'.write? (.ofNumber number) value = .error fault) := by
  rcases leave_eq_error h with ⟨rfl, rfl⟩ | ⟨number, hc, hs, hw⟩
  · exact ⟨rfl, .inl rfl⟩
  · exact ⟨m'.pastDecoding_write? _ value fault hw, .inr ⟨number, hc, hs, hw⟩⟩

/-- What an operation that fails leaves: at most one value is gone from the stack, unless it is a return that the caller
rejects. -/
inductive FailsTo (m : Machine) (i : Instruction) (op : Operation) (values : List UInt16) (fault : Fault) :
    Machine → Prop
  | shortened (n : Nat) (h : n ≤ 1) : FailsTo m i op values fault { m with calls := m.calls.discard n }
  | rejected {caller : Machine} (value : UInt16) (number : UInt8) (returns : Returns m i op values value)
      (called : m.caller? = some caller) (store : m.calls.current.returnStore = some number)
      (rejects : caller.write? (.ofNumber number) value = .error fault) : FailsTo m i op values fault caller

theorem Performs.failed (h : m.Performs i op values m')
    (he : (Effect.of m' op i values).apply m' = ⟨.error fault, m'', events⟩) :
    fault.isMalformed = false ∧ m'.FailsTo i op values fault m'' := by
  have ho := Effect.origin_of m' i h.length_values
  generalize Effect.of m' op i values = e at he ho
  have unchanged : fault.isMalformed = false ∧ m'' = m' →
      fault.isMalformed = false ∧ m'.FailsTo i op values fault m'' := by
    rintro ⟨hf, rfl⟩
    exact ⟨hf, .shortened 0 (Nat.zero_le 1)⟩
  cases e with
  | nothing | jump pc => cases he
  | fail fault' =>
    cases he
    exact unchanged ⟨ho, rfl⟩
  | push value | store target value => exact unchanged (attempt_failed (m'.pastDecoding_write? _ value) he)
  | assign target value => exact unchanged (attempt_failed (m'.pastDecoding_assign? _ value) he)
  | writeByte address byte => exact unchanged (attempt_failed (.map (m'.memory.pastDecoding_writeByte address byte)) he)
  | writeWord address word => exact unchanged (attempt_failed (.map (m'.memory.pastDecoding_writeWord address word)) he)
  | putProperty object property value =>
    exact unchanged (attempt_failed (m'.pastDecoding_put? object property value) he)
  | enter routine arguments returnStore =>
    obtain ⟨hm, hsame⟩ := enter_eq_error he
    exact unchanged ⟨m'.pastDecoding_enter? routine arguments returnStore fault hm, hsame⟩
  | leave value =>
    obtain ⟨hf, hm | ⟨number, hc, hs, hw⟩⟩ := leave_failed he
    · exact unchanged ⟨hf, hm⟩
    · exact ⟨hf, .rejected value number ho hc hs hw⟩
  | pull target =>
    rcases m'.pop_cases with ⟨hp, -⟩ | ⟨value, rest, -, hp⟩
    · simp only [Effect.apply, hp, Report.andThen_error] at he
      cases he
      exact unchanged ⟨rfl, rfl⟩
    · simp only [Effect.apply, hp, Report.andThen_ok, List.nil_append] at he
      obtain ⟨hf, rfl⟩ := attempt_failed (pastDecoding_assign? _ target value) he
      exact ⟨hf, .shortened 1 (Nat.le_refl 1)⟩
  | leavePopped =>
    rcases m'.pop_cases with ⟨hp, -⟩ | ⟨value, rest, hstack, hp⟩
    · simp only [Effect.apply, hp, Report.andThen_error] at he
      cases he
      exact unchanged ⟨rfl, rfl⟩
    · simp only [Effect.apply, hp, Report.andThen_ok, List.nil_append] at he
      obtain ⟨hf, rfl | ⟨number, hc, hs, hw⟩⟩ := leave_failed he
      · exact ⟨hf, .shortened 1 (Nat.le_refl 1)⟩
      · cases (ho : op = .retPopped)
        exact ⟨hf, .rejected value number (.retPopped values hstack) hc hs hw⟩

/-! ### Returns that the caller rejects -/

/-- The instruction at the current address returns a value from a called routine, and the value cannot be stored in the
caller. -/
def ReturnRejected (m : Machine) : Prop :=
  ∃ i op values m₁ value caller number fault, m.Performs i op values m₁ ∧ Returns m₁ i op values value ∧
    2 ≤ m.calls.depth ∧ m₁.caller? = some caller ∧ m.calls.current.returnStore = some number ∧
    (Action.writeVariable (.ofNumber number) value).report caller = ⟨.error fault, caller, []⟩

/-- A rejected return has left the routine. -/
theorem frames_of_returnRejected (h : m.ReturnRejected) : m.step.machine.calls.frames = m.calls.frames.dropLast := by
  obtain ⟨i, op, values, m₁, value, caller, number, fault, hp, hr, -, hc, hs, hw⟩ := h
  obtain ⟨n, -, happly⟩ := hr.apply_eq
  obtain ⟨k, -, hm₁⟩ := hp.machine_eq
  rw [Action.report_writeVariable] at hw
  obtain ⟨hwrite, -, -⟩ := Report.attempt_eq_error hw
  have hstore : m₁.calls.current.returnStore = some number := by
    rw [hm₁]
    exact hs
  have hleave : { m₁ with calls := m₁.calls.discard n }.leave value = ⟨.error fault, caller, []⟩ := by
    have hcaller : { m₁ with calls := m₁.calls.discard n }.caller? = some caller := hc
    have hreturn : (m₁.calls.discard n).current.returnStore = some number := hstore
    simp only [leave, hcaller, hreturn, hwrite, Report.attempt_error]
  have hstep : m.step.machine = { caller with pc := m.pc } :=
    congrArg Report.machine (hp.step_error (happly.trans hleave))
  have hcallers : m.calls.callers = caller.calls.current :: caller.calls.callers := by
    have := (caller?_eq_some hc).1
    rw [hm₁] at this
    exact this
  rw [hstep, CallStack.frames_pop hcallers, List.dropLast_concat]

/-- A return that the caller rejects while an operation is performed, seen from before the step. -/
theorem Performs.returnRejected {value : UInt16} {number : UInt8} (h : m.Performs i op values m')
    (returns : Returns m' i op values value) (called : m'.caller? = some m'')
    (store : m'.calls.current.returnStore = some number)
    (rejects : m''.write? (.ofNumber number) value = .error fault) : m.ReturnRejected := by
  have hdepth : 2 ≤ m.calls.depth := by
    rw [← h.depth_eq, CallStack.depth, (caller?_eq_some called).1, List.length_cons]
    omega
  have hstore : m.calls.current.returnStore = some number := by
    obtain ⟨k, -, rfl⟩ := h.machine_eq
    exact store
  have hreport := Action.report_writeVariable (.ofNumber number) value m''
  rw [rejects] at hreport
  exact ⟨i, op, values, m', value, m'', number, fault, h, returns, hdepth, called, hstore, hreport⟩

/-! ### Steps that fail -/

/-- What a fault past decoding leaves of the frames. -/
def Unwinds (m m' : Machine) : Prop :=
  (∃ n, n ≤ Operand.limit + 1 ∧ m'.calls = m.calls.discard n) ∨ m.ReturnRejected

/-- An operation that fails changes nothing but the frames. -/
theorem Performs.unwinds (h : m.Performs i op values m')
    (he : (Effect.of m' op i values).apply m' = ⟨.error fault, m'', events⟩) :
    m'' = { m with calls := m''.calls, pc := m''.pc } ∧ m.Unwinds m'' := by
  obtain ⟨k, hk, hm'⟩ := h.machine_eq
  cases (h.failed he).2 with
  | shortened n hn =>
    rw [hm']
    exact ⟨rfl, .inl ⟨k + n, Nat.add_le_add hk hn, CallStack.discard_discard m.calls k n⟩⟩
  | rejected value number returns called store rejects =>
    refine ⟨?_, .inr (h.returnRejected returns called store rejects)⟩
    rw [(caller?_eq_some called).2, hm']

/-- **The cases of a step that fails.**  Whatever the fault, only the frames have changed. -/
theorem step_failed {failure : Failure} (h : m.step.result = .error failure) :
    failure = ⟨m.pc, m.step.machine.calls.depth, m.executed, failure.cause⟩ ∧
      m.step.machine = { m with calls := m.step.machine.calls } ∧
      (failure.cause.isMalformed = true ∧ m.step.machine.calls = m.calls ∧ m.step.events = [] ∨
        failure.cause.isMalformed = false ∧ m.Unwinds m.step.machine) := by
  have hresult : m.step.report.result = .error failure := h
  rcases m.step_cases with ⟨fault, hf, hs⟩ | ⟨fault, n, hf, hn, hs⟩ | ⟨i, op, values, m₁, hp⟩
  · have hm : m.step.machine = m := congrArg Report.machine hs
    have he : m.step.events = [] := congrArg Report.events hs
    rw [hs] at hresult
    cases hresult
    rw [hm]
    exact ⟨rfl, rfl, .inl ⟨hf, rfl, he⟩⟩
  · have hm : m.step.machine = { m with calls := m.calls.discard n } := congrArg Report.machine hs
    rw [hs] at hresult
    cases hresult
    rw [hm]
    exact ⟨rfl, rfl, .inr ⟨hf, .inl ⟨n, Nat.le_succ_of_le hn, rfl⟩⟩⟩
  · rcases ha : (Effect.of m₁ op i values).apply m₁ with ⟨fault | ⟨⟩, m₂, events⟩
    · have hs := hp.step_error ha
      have hm : m.step.machine = { m₂ with pc := m.pc } := congrArg Report.machine hs
      obtain ⟨hunchanged, hunwinds⟩ := hp.unwinds ha
      rw [hs] at hresult
      cases hresult
      rw [hm]
      refine ⟨?_, ?_, .inr ⟨(hp.failed ha).1, hunwinds⟩⟩
      · rw [hunchanged]
      · rw [hunchanged]
    · rw [hp.step_ok ha] at hresult
      cases hresult

/-! ### The whole account -/

/-- What is known of a step that fails. -/
structure Damage (m : Machine) (failure : Failure) : Prop where
  pc : m.step.machine.pc = m.pc ∧ failure.pc = m.pc
  executed : m.step.machine.executed = m.executed ∧ failure.executed = m.executed
  memory : m.step.machine.memory = m.memory
  depth : failure.depth = m.step.machine.calls.depth
  /-- A fault of the instruction itself is found before anything is done. -/
  malformed : failure.cause.isMalformed → m.step.machine.calls = m.calls ∧ m.step.events = []
  /-- Otherwise up to five values are gone from the current stack, or the current frame is gone as a whole. -/
  calls : (∃ n, n ≤ 5 ∧ m.step.machine.calls = m.calls.discard n) ∨
    m.step.machine.calls.frames = m.calls.frames.dropLast
  frame_gone_iff : m.step.machine.calls.frames = m.calls.frames.dropLast ↔ m.ReturnRejected

theorem frames_discard_ne_dropLast (c : CallStack) (n : Nat) : (c.discard n).frames ≠ c.frames.dropLast := by
  intro h
  have := congrArg List.length h
  rw [List.length_dropLast, CallStack.length_frames, CallStack.length_frames, CallStack.depth_discard] at this
  unfold CallStack.depth at this
  omega

/-- **The damage of a failing step.**  The address, the count of instructions and memory are as they were.  If the fault lies
in the instruction itself, so are the frames, and nothing was reported.  Otherwise the current evaluation stack is shorter
by at most five values, or the current frame is gone; and the frame is gone exactly if the step was a return from a called
routine whose value the caller could not store. -/
theorem damage_of_failing_step {failure : Failure} (h : m.step.result = .error failure) : m.Damage failure := by
  obtain ⟨hfailure, hm, hcases⟩ := step_failed h
  refine ⟨⟨?_, ?_⟩, ⟨?_, ?_⟩, ?_, ?_, ?_, ?_, ?_, frames_of_returnRejected⟩
  · rw [hm]
  · rw [hfailure]
  · rw [hm]
  · rw [hfailure]
  · rw [hm]
  · rw [hfailure]
  · intro hmalformed
    rcases hcases with ⟨-, hcalls, hevents⟩ | ⟨hf, -⟩
    · exact ⟨hcalls, hevents⟩
    · rw [hf] at hmalformed
      cases hmalformed
  · rcases hcases with ⟨-, hcalls, -⟩ | ⟨-, ⟨n, hn, hcalls⟩ | hr⟩
    · exact .inl ⟨0, Nat.zero_le 5, hcalls⟩
    · exact .inl ⟨n, hn, hcalls⟩
    · exact .inr (frames_of_returnRejected hr)
  · intro hframes
    rcases hcases with ⟨-, hcalls, -⟩ | ⟨-, ⟨n, -, hcalls⟩ | hr⟩
    · rw [hcalls] at hframes
      exact absurd hframes (frames_discard_ne_dropLast m.calls 0)
    · rw [hcalls] at hframes
      exact absurd hframes (frames_discard_ne_dropLast m.calls n)
    · exact hr

/-- A story whose routine returns true to a local that the outermost frame does not have. -/
def homeless : Array UInt8 :=
  #[3, 0, 0, 1, 0, 34, 0, 34, 0, 34, 0, 34, 0, 16, 0, 34, 0, 0, 48, 48, 48, 48, 48, 48, 0, 34, 0, 0, 0, 0, 0, 0, 0, 0,
    0xE0, 0x3F, 0x00, 0x14, 0x01, 0xBA, 0x00, 0xB0]

theorem homeless_damage :
    ∃ m, load homeless = .ok m ∧ (m.after 1).calls.depth = 2 ∧
      (m.after 1).step.result = .error ⟨41, 1, 1, .undeclaredLocal 1 0⟩ ∧ (m.after 2).calls = m.calls ∧
      (m.after 1).Damage ⟨41, 1, 1, .undeclaredLocal 1 0⟩ :=
  ⟨_, rfl, rfl, rfl, rfl, damage_of_failing_step rfl⟩

end Machine

end ZMachine
