import ZMachine.Variables

/-!
# Calls, returns and branches

How execution leaves the row of instructions: into a routine, back to its caller, or to a branch's destination.

* `Action.callRoutine`: build the frame of a routine from its header and the arguments, and enter it;
* `Action.returnValue`: leave the current routine, then store the value in its caller;
* `Action.branchIf`: take an instruction's branch if a test came out as it asks.
-/

namespace ZMachine

/-- Whether a step leaves the story running. -/
inductive Progress where
  | running
  | quit
deriving DecidableEq, Repr

namespace Action

/-- The initial values of a routine's locals, which follow its first byte up to version 4, and the address of its first
instruction. -/
def routineStart (m : Machine) (routine : Nat) (declared : UInt8) : Except Fault (List UInt16 × Nat) :=
  if m.version ≤ 4 then do
    let initial ← m.memory.readWords (routine + 1) declared.toNat
    return (initial, routine + 1 + 2 * declared.toNat)
  else
    .ok ([], routine + 1)

/-- Enter the routine at an address.  Execution will go on at the current address when it returns. -/
def enterRoutine (routine : Nat) (arguments : List UInt16) (returnStore : Option UInt8) : Action Unit := do
  let m ← machine
  let declared ← m.memory.readByte routine
  let frame ← Frame.create (UInt32.ofNat routine) m.pc returnStore declared
  let (initial, start) ← routineStart m routine declared
  let frame := frame.setLocals initial arguments
  log (.calling routine arguments declared m.pc)
  let calls ← m.calls.push frame
  update fun m => { m with calls, pc := UInt32.ofNat start }
  emit (.entered frame.routine frame.returnPc calls.depth frame.declaredLocals)

/-- Call the routine at a packed address.  Address 0 is no routine: the call stores 0 at once. -/
def callRoutine (packed : UInt16) (arguments : List UInt16) (returnStore : Option UInt8) : Action Unit := do
  if packed = 0 then
    log .callingNothing
    match returnStore with
    | some number => storeVariable (.ofNumber number) 0
    | none => pure ()
  else
    let m ← machine
    enterRoutine (m.unpack packed) arguments returnStore

/-- Return a value from the current routine.  Its frame is gone before the value is stored. -/
def returnValue (value : UInt16) : Action Unit := do
  let m ← machine
  let (frame, calls) ← m.calls.pop
  update fun m => { m with calls, pc := frame.returnPc }
  log (.returning value frame.routine frame.returnPc)
  match frame.returnStore with
  | some number => storeVariable (.ofNumber number) value
  | none => pure ()
  emit (.left calls.depth value frame.returnPc)

/-- Take the branch of an instruction if the test came out as it asks. -/
def branchIf (i : Instruction) (holds : Bool) : Action Unit :=
  match i.branch with
  | none => pure ()
  | some b =>
    if holds = b.onTrue then
      match b.destination i.nextPc with
      | .returnFalse => returnValue 0
      | .returnTrue => returnValue 1
      | .jump pc => do
        log (.branching i.address pc)
        setPc pc
    else
      pure ()

end Action

end ZMachine
