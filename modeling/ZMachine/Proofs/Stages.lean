import ZMachine.Proofs.Faults

/-!
# The stages of a step

A step fetches an instruction, reads its operands and performs its operation.  The first stage changes nothing; the second
takes at most four values off the current evaluation stack; the third is the effect of the operation.

* `Machine.Performs`: a machine gets to the third stage;
* `Machine.step_cases`: what a step that fails before the third stage leaves;
* `Machine.Performs.step_ok`, `Machine.Performs.step_error`: the third stage decides the step;
* `Machine.after`: the machine after a number of steps.
-/

namespace ZMachine

/-! ### Reading operands -/

/-- Popping a value discards it; an empty stack stays as it is. -/
theorem Machine.pop_cases (m : Machine) :
    (m.pop = ⟨.error .stackUnderflow, m, []⟩ ∧ m.calls.current.stack = []) ∨
      ∃ value rest, m.calls.current.stack = value :: rest ∧
        m.pop = ⟨.ok value, { m with calls := m.calls.discard 1 }, []⟩ := by
  unfold pop
  cases hs : m.calls.current.stack with
  | nil =>
    left
    simp [Frame.pop, hs]
  | cons value rest =>
    right
    have hp : m.calls.current.pop = .ok (value, { m.calls.current with stack := rest }) :=
      Frame.pop_eq_ok_iff.2 ⟨rest, hs, rfl⟩
    refine ⟨value, rest, rfl, ?_⟩
    rw [hp]
    simp only [withCurrent, CallStack.discard_one_of_pop hp]

/-- What holds of a machine with and without the top of its stack, and is kept by what follows, is kept by the whole. -/
theorem Machine.pop_andThen_keeps {P : Machine → Prop} {m : Machine} {f : UInt16 → Machine → Report Fault Unit}
    (h : P m) (h' : P { m with calls := m.calls.discard 1 }) (hf : ∀ value m', P m' → P (f value m').machine) :
    P (m.pop.andThen f).machine := by
  rcases m.pop_cases with ⟨hp, -⟩ | ⟨value, rest, -, hp⟩
  · rw [hp]
    exact h
  · rw [hp]
    exact hf value _ h'

namespace Action

theorem report_operandValue (operand : Operand) (m : Machine) :
    ∃ n result, n ≤ 1 ∧ (operandValue operand).report m = ⟨result, { m with calls := m.calls.discard n }, []⟩ ∧
      PastDecoding result := by
  cases operand with
  | large value => exact ⟨0, .ok value, Nat.zero_le 1, rfl, .ok _⟩
  | small value => exact ⟨0, .ok value.toUInt16, Nat.zero_le 1, rfl, .ok _⟩
  | var source =>
    cases source with
    | stack =>
      show ∃ n result, n ≤ 1 ∧ pop.report m = _ ∧ _
      rw [report_pop]
      rcases m.pop_cases with ⟨hp, -⟩ | ⟨value, rest, -, hp⟩
      · exact ⟨0, .error .stackUnderflow, Nat.zero_le 1, hp, .error rfl⟩
      · exact ⟨1, .ok value, Nat.le_refl 1, hp, .ok _⟩
    | localSlot slot =>
      exact ⟨0, m.valueOf (.localSlot slot), Nat.zero_le 1, rfl, m.pastDecoding_valueOf _⟩
    | globalCell index =>
      exact ⟨0, m.valueOf (.globalCell index), Nat.zero_le 1, rfl, m.pastDecoding_valueOf _⟩

/-- Reading operands yields a value for each of them, and does nothing but take values off the current stack. -/
theorem report_operandValues (operands : List Operand) (m : Machine) :
    ∃ n result, n ≤ operands.length ∧
      (operandValues operands).report m = ⟨result, { m with calls := m.calls.discard n }, []⟩ ∧
      (∀ values, result = .ok values → values.length = operands.length) ∧ PastDecoding result := by
  induction operands generalizing m with
  | nil => exact ⟨0, .ok [], Nat.le_refl 0, rfl, by rintro _ ⟨⟩; rfl, .ok []⟩
  | cons operand operands ih =>
    obtain ⟨n, first, hn, hfirst, hfault⟩ := report_operandValue operand m
    unfold operandValues
    rw [report_bind, hfirst]
    cases first with
    | error fault =>
      exact ⟨n, .error fault, by simp; omega, rfl, nofun, .error (hfault fault rfl)⟩
    | ok value =>
      obtain ⟨k, rest, hk, hrest, hlength, hfaults⟩ := ih { m with calls := m.calls.discard n }
      simp only [Report.andThen_ok, report_bind, hrest, CallStack.discard_discard, List.nil_append]
      cases rest with
      | error fault =>
        exact ⟨n + k, .error fault, by simp; omega, rfl, nofun, .error (hfaults fault rfl)⟩
      | ok values =>
        refine ⟨n + k, .ok (value :: values), by simp; omega, rfl, ?_, .ok _⟩
        rintro _ ⟨⟩
        simp [hlength values rfl]

/-- An operand that has been read is gone from the stack if it stood there, and nothing else has changed. -/
theorem machine_of_operandValue {operand : Operand} {value : UInt16} {m m' : Machine} {events : List Event}
    (h : (operandValue operand).report m = ⟨.ok value, m', events⟩) :
    m' = { m with calls := m.calls.discard (if operand = .var .stack then 1 else 0) } := by
  cases operand with
  | large value | small value =>
    cases h
    rfl
  | var source =>
    cases source with
    | stack =>
      replace h : pop.report m = ⟨.ok value, m', events⟩ := h
      rw [report_pop] at h
      rcases m.pop_cases with ⟨hp, -⟩ | ⟨top, rest, -, hp⟩
      · rw [hp] at h
        cases h
      · rw [hp] at h
        cases h
        rfl
    | localSlot slot | globalCell index => exact (congrArg Report.machine h).symm

/-- Operands that have been read are gone from the stack as far as they stood there, and nothing else has changed. -/
theorem machine_of_operandValues {operands : List Operand} {values : List UInt16} {m m' : Machine} {events : List Event}
    (h : (operandValues operands).report m = ⟨.ok values, m', events⟩) :
    m' = { m with calls := m.calls.discard (operands.count (.var .stack)) } := by
  induction operands generalizing m values events with
  | nil =>
    cases h
    rfl
  | cons operand operands ih =>
    unfold operandValues at h
    rw [report_bind] at h
    rcases hfirst : (operandValue operand).report m with ⟨fault | value, m₁, events₁⟩
    · rw [hfirst] at h
      cases h
    · rw [hfirst, Report.andThen_ok, report_bind] at h
      rcases hrest : (operandValues operands).report m₁ with ⟨fault | values₁, m₂, events₂⟩
      · rw [hrest] at h
        cases h
      · rw [hrest] at h
        cases h
        have hm₁ := machine_of_operandValue hfirst
        have hm₂ := ih hrest
        rw [hm₂, hm₁, CallStack.discard_discard, List.count_cons]
        by_cases hs : operand = .var .stack
        · simp [hs, Nat.add_comm]
        · simp [hs]

theorem report_fetch (m : Machine) : fetch.report m = ⟨Instruction.fetch m.memory m.pc.toNat, m, []⟩ := by
  unfold fetch Instruction.fetch
  cases hd : Instruction.decode m.memory m.pc.toNat <;> simp [report_bind, hd]

/-- An instruction whose operands have been read is reported as decoded, and then its operation has its effect. -/
theorem report_execute {i : Instruction} {op : Operation} {values : List UInt16} {m m' : Machine}
    (henough : op.entry.minOperands ≤ i.operands.length)
    (hread : (operandValues i.operands).report { m with pc := i.nextPc } = ⟨.ok values, m', []⟩) :
    (execute i op).report m =
      Report.andThen ⟨.ok (), m', [.decoded i op values]⟩ fun _ m₁ =>
        ((Effect.of m₁ op i values).apply m₁).andThen fun _ m₂ =>
          ⟨.ok (if op = .quit then .quit else .running), m₂, []⟩ := by
  rw [execute, if_neg (Nat.not_lt.2 henough)]
  simp only [report_bind, report_setPc, report_log, report_emit, report_pure, report_perform, hread, Report.andThen_ok,
    List.nil_append]

end Action

/-! ### Getting to perform an operation -/

namespace Machine

/-- A machine gets to perform an operation: the instruction at the current address can be fetched, has enough operands, and
the values of its operands can be read.  The last argument is the machine as it is then: it goes on after the instruction,
and the operands on the stack are gone. -/
structure Performs (m : Machine) (i : Instruction) (op : Operation) (values : List UInt16) (m' : Machine) : Prop where
  fetched : Instruction.fetch m.memory m.pc.toNat = .ok (i, op)
  enough : op.entry.minOperands ≤ i.operands.length
  resolved : (Action.operandValues i.operands).report { m with pc := i.nextPc } = ⟨.ok values, m', []⟩

/-- The failure of a step that met a fault and left the number of frames as it was. -/
def failure (m : Machine) (fault : Fault) : Failure :=
  ⟨m.pc, m.calls.depth, m.executed, fault⟩

theorem step_of_ok {m m' : Machine} {progress : Progress} {events : List Event}
    (h : Action.executeNext.report m = ⟨.ok progress, m', events⟩) :
    m.step.report = ⟨.ok progress, { m' with executed := m'.executed + 1 }, events⟩ := by
  unfold Action.report Outcome.report at h
  unfold step
  rcases hr : Action.executeNext.run m with ⟨fault | progress', m₁, notes⟩
  · simp [hr] at h
  · rw [hr] at h
    simp only [Report.mk.injEq, Except.ok.injEq] at h
    obtain ⟨rfl, rfl, rfl⟩ := h
    rfl

theorem step_of_error {m m' : Machine} {fault : Fault} {events : List Event}
    (h : Action.executeNext.report m = ⟨.error fault, m', events⟩) :
    m.step.report = ⟨.error ⟨m.pc, m'.calls.depth, m'.executed, fault⟩, { m' with pc := m.pc }, events⟩ := by
  unfold Action.report Outcome.report at h
  unfold step
  rcases hr : Action.executeNext.run m with ⟨fault' | progress, m₁, notes⟩
  · rw [hr] at h
    simp only [Report.mk.injEq, Except.error.injEq] at h
    obtain ⟨rfl, rfl, rfl⟩ := h
    simp [Outcome.report, Outcome.events, Note.event?]
  · simp [hr] at h

/-- **What a step does before it performs an operation.**  Either the instruction is malformed, and nothing changes; or an
operand cannot be read, and all that changes is that some values are gone from the current stack; or an operation is
performed. -/
theorem step_cases (m : Machine) :
    (∃ fault, fault.isMalformed ∧ m.step.report = ⟨.error (m.failure fault), m, []⟩) ∨
      (∃ fault n, fault.isMalformed = false ∧ n ≤ Operand.limit ∧
        m.step.report = ⟨.error (m.failure fault), { m with calls := m.calls.discard n }, []⟩) ∨
      ∃ i op values m', m.Performs i op values m' := by
  rcases hf : Instruction.fetch m.memory m.pc.toNat with fault | ⟨i, op⟩
  · left
    refine ⟨fault, Instruction.isMalformed_of_fetch hf, step_of_error ?_⟩
    rw [Action.executeNext, Action.report_bind, Action.report_fetch, hf, Report.andThen_error]
  · have hfetch : Action.executeNext.report m = (Action.execute i op).report m := by
      rw [Action.executeNext, Action.report_bind, Action.report_fetch, hf]
      rfl
    by_cases henough : i.operands.length < op.entry.minOperands
    · left
      refine ⟨.missingOperands op.name op.entry.minOperands i.operands.length, rfl, step_of_error ?_⟩
      rw [hfetch, Action.execute, if_pos henough]
      rfl
    · right
      obtain ⟨n, result, hn, hread, -, hfault⟩ := Action.report_operandValues i.operands { m with pc := i.nextPc }
      have hlimit := (Instruction.suits_of_fetch hf).operands_le
      cases result with
      | ok values => exact .inr ⟨i, op, values, _, hf, Nat.not_lt.1 henough, hread⟩
      | error fault =>
        left
        have hexecute : Action.executeNext.report m =
            ⟨.error fault, { m with pc := i.nextPc, calls := m.calls.discard n }, []⟩ := by
          rw [hfetch, Action.execute, if_neg henough]
          simp only [Action.report_bind, Action.report_setPc, Report.andThen_ok, hread, Report.andThen_error,
            List.nil_append]
        exact ⟨fault, n, hfault fault rfl, Nat.le_trans hn hlimit, step_of_error hexecute⟩

namespace Performs

variable {m m' m'' : Machine} {i : Instruction} {op : Operation} {values : List UInt16} {events : List Event}

theorem suits (h : m.Performs i op values m') : i.Suits op :=
  Instruction.suits_of_fetch h.fetched

/-- Up to the performance, at most four values are gone from the current stack. -/
theorem machine_eq (h : m.Performs i op values m') :
    ∃ n, n ≤ Operand.limit ∧ m' = { m with pc := i.nextPc, calls := m.calls.discard n } := by
  obtain ⟨n, result, hn, hread, -, -⟩ := Action.report_operandValues i.operands { m with pc := i.nextPc }
  rw [h.resolved, Report.mk.injEq] at hread
  exact ⟨n, Nat.le_trans hn h.suits.operands_le, hread.2.1⟩

/-- Exactly the operands on the stack are gone from it. -/
theorem machine_eq_discard (h : m.Performs i op values m') :
    m' = { m with pc := i.nextPc, calls := m.calls.discard (i.operands.count (.var .stack)) } :=
  Action.machine_of_operandValues h.resolved

theorem depth_eq (h : m.Performs i op values m') : m'.calls.depth = m.calls.depth := by
  obtain ⟨n, -, rfl⟩ := h.machine_eq
  rfl

theorem executed_eq (h : m.Performs i op values m') : m'.executed = m.executed := by
  obtain ⟨n, -, rfl⟩ := h.machine_eq
  rfl

/-- There is a value for each operand. -/
theorem length_eq (h : m.Performs i op values m') : values.length = i.operands.length := by
  obtain ⟨n, result, -, hread, hlength, -⟩ := Action.report_operandValues i.operands { m with pc := i.nextPc }
  rw [h.resolved, Report.mk.injEq] at hread
  exact hlength values hread.1.symm

theorem length_values (h : m.Performs i op values m') : op.entry.minOperands ≤ values.length := by
  rw [h.length_eq]
  exact h.enough

theorem report_executeNext (h : m.Performs i op values m') :
    Action.executeNext.report m =
      Report.andThen ⟨.ok (), m', [.decoded i op values]⟩ fun _ m₁ =>
        ((Effect.of m₁ op i values).apply m₁).andThen fun _ m₂ =>
          ⟨.ok (if op = .quit then .quit else .running), m₂, []⟩ := by
  rw [Action.executeNext, Action.report_bind, Action.report_fetch, h.fetched]
  exact Action.report_execute h.enough h.resolved

/-- An effect that succeeds makes a step that succeeds. -/
theorem step_ok (h : m.Performs i op values m') (he : (Effect.of m' op i values).apply m' = ⟨.ok (), m'', events⟩) :
    m.step.report = ⟨.ok (if op = .quit then .quit else .running), { m'' with executed := m''.executed + 1 },
      .decoded i op values :: events⟩ := by
  apply step_of_ok
  rw [h.report_executeNext]
  simp [he]

/-- An effect that fails makes a step that fails, with the machine as the effect left it but for the address. -/
theorem step_error {fault : Fault} (h : m.Performs i op values m')
    (he : (Effect.of m' op i values).apply m' = ⟨.error fault, m'', events⟩) :
    m.step.report = ⟨.error ⟨m.pc, m''.calls.depth, m''.executed, fault⟩, { m'' with pc := m.pc },
      .decoded i op values :: events⟩ := by
  apply step_of_error
  rw [h.report_executeNext]
  simp [he]

/-- A step that succeeds has applied the effect of its operation with success. -/
theorem apply_of_isOk (h : m.Performs i op values m') (hok : m.step.result.isOk) :
    ∃ m'' events, (Effect.of m' op i values).apply m' = ⟨.ok (), m'', events⟩ ∧
      m.step.machine = { m'' with executed := m''.executed + 1 } := by
  have hresult : m.step.report.result.isOk := hok
  rcases ha : (Effect.of m' op i values).apply m' with ⟨fault | ⟨⟩, m'', events⟩
  · rw [h.step_error ha] at hresult
    cases hresult
  · exact ⟨m'', events, rfl, congrArg Report.machine (h.step_ok ha)⟩

end Performs

/-- A step that succeeds has performed an operation. -/
theorem performs_of_isOk {m : Machine} (hok : m.step.result.isOk) : ∃ i op values m', m.Performs i op values m' := by
  have hresult : m.step.report.result.isOk := hok
  rcases m.step_cases with ⟨fault, -, hs⟩ | ⟨fault, n, -, -, hs⟩ | hp
  · rw [hs] at hresult
    cases hresult
  · rw [hs] at hresult
    cases hresult
  · exact hp

/-! ### Runs -/

/-- The machine after a number of steps, whatever each of them came to. -/
def after (m : Machine) : Nat → Machine
  | 0 => m
  | n + 1 => (m.after n).step.machine

end Machine

end ZMachine
