import ZMachine.Action

/-!
# Access to variables

A variable can be read and written in two ways.  As an operand or as the place of a result, the stack is popped and pushed.
Named by the value of an operand, the top of the stack is read and replaced in place.  Locals and globals make no
difference between the two.

* `Action.readVariable`, `Action.writeVariable`: operands and results;
* `Action.loadVariable`, `Action.assignVariable`: variables named by a value.
-/

namespace ZMachine.Action

/-- Put a value on the evaluation stack of the current routine. -/
def push (value : UInt16) : Action Unit :=
  onFrame fun f => f.push value

/-- Take a value off the evaluation stack of the current routine; an empty stack is logged. -/
def pop : Action UInt16 := do
  let m ← machine
  match m.calls.current.pop with
  | .ok (value, frame) =>
    update fun m => { m with calls := { m.calls with current := frame } }
    return value
  | .error fault =>
    log (.stackUnderflow m.pc m.calls.depth)
    ofExcept (.error fault)

/-- The top of the evaluation stack of the current routine. -/
def peek : Action UInt16 := do
  (← machine).calls.current.peek

/-- The value of a local of the current routine. -/
def readLocal (slot : UInt8) : Action UInt16 := do
  (← machine).calls.current.readLocal slot

/-- Set a local of the current routine. -/
def writeLocal (slot : UInt8) (value : UInt16) : Action Unit :=
  onFrame fun f => f.writeLocal slot value

/-- The value of a global. -/
def readGlobal (index : UInt8) : Action UInt16 := do
  let m ← machine
  m.memory.readWord (m.globalAddress index)

/-- Set a global. -/
def writeGlobal (index : UInt8) (value : UInt16) : Action Unit where
  run m := (writeWord (m.globalAddress index) value).run m

/-- The value of a variable that is an operand. -/
def readVariable : Variable → Action UInt16
  | .stack => pop
  | .localSlot slot => readLocal slot
  | .globalCell index => readGlobal index

/-- Set a variable that takes a result. -/
def writeVariable (target : Variable) (value : UInt16) : Action Unit :=
  match target with
  | .stack => push value
  | .localSlot slot => writeLocal slot value
  | .globalCell index => writeGlobal index value

/-- The value of a variable named by a value. -/
def loadVariable : Variable → Action UInt16
  | .stack => peek
  | .localSlot slot => readLocal slot
  | .globalCell index => readGlobal index

/-- Set a variable named by a value. -/
def assignVariable (target : Variable) (value : UInt16) : Action Unit :=
  match target with
  | .stack => onFrame fun f => f.replaceTop value
  | .localSlot slot => writeLocal slot value
  | .globalCell index => writeGlobal index value

/-- Set a variable that takes a result and report it. -/
def storeVariable (target : Variable) (value : UInt16) : Action Unit := do
  writeVariable target value
  emit (.stored target value)

/-- Set a variable named by a value and report it. -/
def storeNamed (target : Variable) (value : UInt16) : Action Unit := do
  assignVariable target value
  emit (.stored target value)

/-- Store the result of an instruction. -/
def storeResult (i : Instruction) (value : UInt16) : Action Unit :=
  match i.target with
  | some target => storeVariable target value
  | none => pure ()

/-- The value of an operand. -/
def operandValue : Operand → Action UInt16
  | .large value => pure value
  | .small value => pure value.toUInt16
  | .var source => readVariable source

/-- The values of operands, from left to right. -/
def operandValues : List Operand → Action (List UInt16)
  | [] => pure []
  | operand :: operands => do
    let value ← operandValue operand
    let values ← operandValues operands
    return value :: values

end ZMachine.Action
