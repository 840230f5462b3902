import ZMachine.Execute

/-!
# Steps

A step fetches the instruction at the current address, takes the values of its operands and performs its operation.

* `Action.fetch`: the instruction and operation at the current address;
* `Action.execute`: performing an instruction;
* `Machine.step`: one step.  A step that fails leaves the address on the failing instruction and does not count; whatever
  else the instruction changed before it failed stays changed.
-/

namespace ZMachine

namespace Action

/-- The instruction at the current address, with its tails and operation. -/
def fetch : Action (Instruction × Operation) := do
  let m ← machine
  let i ← Instruction.decode m.memory m.pc.toNat
  log (.decoded i)
  i.complete m.memory

/-- Perform an instruction. -/
def execute (i : Instruction) (op : Operation) : Action Progress := do
  if i.operands.length < op.entry.minOperands then
    ofExcept (.error (.missingOperands op.name op.entry.minOperands i.operands.length))
  else
    setPc i.nextPc
    let values ← operandValues i.operands
    log (.executing i values)
    emit (.decoded i op values)
    perform op i values
    return if op = .quit then .quit else .running

/-- Fetch and perform the instruction at the current address. -/
def executeNext : Action Progress := do
  let (i, op) ← fetch
  execute i op

end Action

/-- Fetch and perform one instruction. -/
def Machine.step (m : Machine) : Outcome Failure Progress :=
  let pc := m.pc
  match Action.executeNext.run m with
  | ⟨.ok progress, m', notes⟩ => ⟨.ok progress, { m' with executed := m'.executed + 1 }, notes⟩
  | ⟨.error fault, m', notes⟩ =>
    let failure : Failure := ⟨pc, m'.calls.depth, m'.executed, fault⟩
    ⟨.error failure, { m' with pc }, notes ++ [.log (.stepFailed failure)]⟩

end ZMachine
