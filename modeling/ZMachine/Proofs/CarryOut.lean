import ZMachine.Proofs.Bracketing

/-!
# Carrying out an instruction

A step carries out the instruction that it has fetched.  What comes of it depends on the machine and on the parts of the
instruction, wherever in memory these were read from; and nothing that it does on the way looks at the address of the next
instruction, which is where execution goes on if nothing else is said.

* `Machine.carryOut`, `Machine.step_eq_carryOut`: what a step makes of the instruction that it has fetched;
* `Machine.carryOut_ok`, `Machine.carryOut_error`: the effect of the operation decides it;
* `Action.report_operandValues_moved`, `Machine.write?_moved`, `Machine.assign?_moved`, `Machine.leave_moved`: reading
  operands, setting variables and leaving a routine are the same at any address.
-/

namespace ZMachine

namespace Machine

variable {m m' m'' : Machine} {i : Instruction} {op : Operation} {values : List UInt16} {events : List Event}
  {fault : Fault}

/-- What a step makes of the report of its instruction: a success is counted, and a failure leads back to the address that
the step started from. -/
def conclude (m : Machine) : Report Fault Progress → Report Failure Progress
  | ⟨.ok progress, m', events⟩ => ⟨.ok progress, { m' with executed := m'.executed + 1 }, events⟩
  | ⟨.error fault, m', events⟩ =>
    ⟨.error ⟨m.pc, m'.calls.depth, m'.executed, fault⟩, { m' with pc := m.pc }, events⟩

/-- What a step comes to that has fetched the given instruction and operation. -/
def carryOut (m : Machine) (i : Instruction) (op : Operation) : Report Failure Progress :=
  m.conclude ((Action.execute i op).report m)

/-- **A step carries out the instruction at the current address.** -/
theorem step_eq_carryOut (h : Instruction.fetch m.memory m.pc.toNat = .ok (i, op)) :
    m.step.report = m.carryOut i op := by
  have hfetch : Action.executeNext.report m = (Action.execute i op).report m := by
    rw [Action.executeNext, Action.report_bind, Action.report_fetch, h]
    rfl
  unfold carryOut
  rcases hr : (Action.execute i op).report m with ⟨fault | progress, m', events⟩
  · exact step_of_error (hfetch.trans hr)
  · exact step_of_ok (hfetch.trans hr)

/-! ### From the operands on -/

theorem carryOut_of_few (h : i.operands.length < op.entry.minOperands) :
    m.carryOut i op =
      ⟨.error (m.failure (.missingOperands op.name op.entry.minOperands i.operands.length)), m, []⟩ := by
  rw [carryOut, Action.execute, if_pos h]
  rfl

theorem carryOut_of_unread (henough : op.entry.minOperands ≤ i.operands.length)
    (hread : (Action.operandValues i.operands).report { m with pc := i.nextPc } = ⟨.error fault, m', events⟩) :
    m.carryOut i op = m.conclude ⟨.error fault, m', events⟩ := by
  rw [carryOut, Action.execute, if_neg (Nat.not_lt.2 henough), Action.report_bind, Action.report_setPc,
    Report.andThen_ok_nil, Action.report_bind, hread, Report.andThen_error]

theorem carryOut_ok (henough : op.entry.minOperands ≤ i.operands.length)
    (hread : (Action.operandValues i.operands).report { m with pc := i.nextPc } = ⟨.ok values, m', []⟩)
    (he : (Effect.of m' op i values).apply m' = ⟨.ok (), m'', events⟩) :
    m.carryOut i op = ⟨.ok (if op = .quit then .quit else .running), { m'' with executed := m''.executed + 1 },
      .decoded i op values :: events⟩ := by
  rw [carryOut, Action.report_execute henough hread]
  simp [he, conclude]

theorem carryOut_error (henough : op.entry.minOperands ≤ i.operands.length)
    (hread : (Action.operandValues i.operands).report { m with pc := i.nextPc } = ⟨.ok values, m', []⟩)
    (he : (Effect.of m' op i values).apply m' = ⟨.error fault, m'', events⟩) :
    m.carryOut i op = ⟨.error ⟨m.pc, m''.calls.depth, m''.executed, fault⟩, { m'' with pc := m.pc },
      .decoded i op values :: events⟩ := by
  rw [carryOut, Action.report_execute henough hread]
  simp [he, conclude]

end Machine

/-! ### At another address -/

/-- The report with the machine at another address. -/
def Report.movedTo {ε α : Type} (r : Report ε α) (pc : UInt32) : Report ε α :=
  { r with machine := { r.machine with pc } }

namespace Action

variable (m : Machine) (pc : UInt32)

theorem report_operandValue_moved (operand : Operand) :
    (operandValue operand).report { m with pc } = ((operandValue operand).report m).movedTo pc := by
  cases operand with
  | large value | small value => rfl
  | var source =>
    cases source with
    | stack =>
      show pop.report { m with pc } = (pop.report m).movedTo pc
      rw [report_pop, report_pop, Machine.pop, Machine.pop]
      cases m.calls.current.pop <;> rfl
    | localSlot slot | globalCell index => rfl

/-- Operands are read in the same way at any address. -/
theorem report_operandValues_moved (operands : List Operand) :
    (operandValues operands).report { m with pc } = ((operandValues operands).report m).movedTo pc := by
  induction operands generalizing m with
  | nil => rfl
  | cons operand operands ih =>
    unfold operandValues
    rw [report_bind, report_bind, report_operandValue_moved]
    rcases (operandValue operand).report m with ⟨fault | value, m₁, events₁⟩
    · rfl
    · simp only [Report.movedTo, Report.andThen_ok, report_bind, ih]
      rcases (operandValues operands).report m₁ with ⟨fault | values, m₂, events₂⟩
      · rfl
      · rfl

end Action

namespace Machine

variable (m : Machine) (pc : UInt32) (target : Variable) (value : UInt16)

theorem map_moved {α : Type} (x : Except Fault α) (f : α → Machine) :
    (x.map fun a => { f a with pc }) = (x.map f).map fun m' => { m' with pc } := by
  cases x <;> rfl

theorem write?_moved : { m with pc }.write? target value = (m.write? target value).map fun m' => { m' with pc } := by
  cases target with
  | stack => exact map_moved pc (m.calls.current.push value) m.withCurrent
  | localSlot slot => exact map_moved pc (m.calls.current.writeLocal slot value) m.withCurrent
  | globalCell index =>
    exact map_moved pc (m.memory.writeWord (m.globalAddress index) value) fun memory => { m with memory }

theorem assign?_moved : { m with pc }.assign? target value = (m.assign? target value).map fun m' => { m' with pc } := by
  cases target with
  | stack => exact map_moved pc (m.calls.current.replaceTop value) m.withCurrent
  | localSlot slot => exact map_moved pc (m.calls.current.writeLocal slot value) m.withCurrent
  | globalCell index =>
    exact map_moved pc (m.memory.writeWord (m.globalAddress index) value) fun memory => { m with memory }

/-- **A routine is left in the same way from any address.**  If there is none to leave, nothing happens to the machine. -/
theorem leave_moved :
    ({ m with pc }.leave value = m.leave value ∧ (m.leave value).machine.calls.depth < m.calls.depth) ∨
      m.leave value = ⟨.error .returnFromTopLevel, m, []⟩ ∧
        { m with pc }.leave value = ⟨.error .returnFromTopLevel, { m with pc }, []⟩ := by
  unfold leave caller?
  cases hc : m.calls.callers with
  | nil => exact .inr ⟨rfl, rfl⟩
  | cons caller callers =>
    left
    have hdepth : CallStack.depth ⟨caller, callers⟩ < m.calls.depth := by
      simp [CallStack.depth, hc]
    cases m.calls.current.returnStore with
    | none => exact ⟨rfl, hdepth⟩
    | some number =>
      refine ⟨rfl, Report.attempt_machine (P := fun m' => m'.calls.depth < m.calls.depth) hdepth fun m' hw => ?_⟩
      rw [(within_of_sets (sets_of_write? hw)).depth_eq]
      exact hdepth

end Machine

end ZMachine
