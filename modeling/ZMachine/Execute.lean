import ZMachine.Routine

/-!
# The operations

What each operation does with the values of its operands.

* `Word.divide`, `Word.remainder`: signed division toward zero, and its remainder;
* `Action.perform`: the effect of an operation.
-/

namespace ZMachine

namespace Word

/-- The signed quotient, cut toward zero; the one quotient that does not fit, 32768, wraps to -32768. -/
def divide (a b : UInt16) : Except Fault UInt16 :=
  if b = 0 then .error .divisionByZero else .ok (a.toInt16 / b.toInt16).toUInt16

/-- The remainder of the signed quotient, which is zero or has the sign of the dividend. -/
def remainder (a b : UInt16) : Except Fault UInt16 :=
  if b = 0 then .error .divisionByZero else .ok (a.toInt16 % b.toInt16).toUInt16

end Word

/-- What the log says of a write to an object table: where the property was found, if it was. -/
def PropertyTable.putMessages (t : PropertyTable) (m : Memory) (object : UInt16) (property : UInt8) (value : UInt16) :
    List Diagnostic :=
  match t.find m object property with
  | .ok slot => [.propertyFound object property slot.address slot.size value]
  | .error _ => []

namespace Action

/-- Log two operands, compute on them as signed numbers and store the result. -/
def calculate (op : Operation) (i : Instruction) (a b : UInt16) (result : Except Fault UInt16) : Action Unit := do
  log (.arithmetic op a b)
  storeResult i (← result)

/-- Log two operands, combine their bits and store the result. -/
def combine (op : Operation) (i : Instruction) (a b result : UInt16) : Action Unit := do
  log (.bitwise op a b)
  storeResult i result

/-- Test two operands as signed numbers and branch on the outcome. -/
def compare (op : Operation) (i : Instruction) (a b : UInt16) (holds : Bool) : Action Unit := do
  log (.comparison op a b holds)
  branchIf i holds

/-- The element of an array of words. -/
def loadWord (i : Instruction) (array index : UInt16) : Action Unit := do
  let address := array.toNat + 2 * index.toNat
  let value ← (← machine).memory.readWord address
  log (.wordRead address value)
  storeResult i value

/-- The element of an array of bytes. -/
def loadByte (i : Instruction) (array index : UInt16) : Action Unit := do
  let address := array.toNat + index.toNat
  let value ← (← machine).memory.readByte address
  log (.byteRead address value)
  storeResult i value.toUInt16

/-- Set an element of an array of words. -/
def storeWord (array index value : UInt16) : Action Unit := do
  let address := array.toNat + 2 * index.toNat
  log (.wordWriting address value)
  writeWord address value

/-- Set an element of an array of bytes. -/
def storeByte (array index value : UInt16) : Action Unit := do
  let address := array.toNat + index.toNat
  log (.byteWriting address (Word.low value))
  writeByte address (Word.low value)

/-- Copy the value of a named variable to the place of the result. -/
def load (i : Instruction) (name : UInt16) : Action Unit := do
  let source := Variable.ofNumber (Word.low name)
  let value ← loadVariable source
  log (.loaded source value)
  storeResult i value

/-- Assign a value to a named variable. -/
def store (name value : UInt16) : Action Unit := do
  let target := Variable.ofNumber (Word.low name)
  log (.assigning .store target value)
  storeNamed target value

/-- Move the top of the stack to a named variable. -/
def pull (name : UInt16) : Action Unit := do
  let target := Variable.ofNumber (Word.low name)
  let value ← pop
  log (.assigning .pull target value)
  storeNamed target value

/-- Go on at a distance from the current address. -/
def jump (distance : UInt16) : Action Unit := do
  let m ← machine
  let offset := Word.signed distance
  let target := jumpTarget m.pc offset
  log (.jumping offset target)
  setPc target

/-- Overwrite a property in the object model. -/
def putProperty (object : UInt16) (property : UInt8) (value : UInt16) : Action Unit := do
  log (.propertyRequested object property value)
  let m ← machine
  match m.objects with
  | .table t =>
    logAll (t.putMessages m.memory object property value)
    let memory ← t.put m.memory object property value
    update fun m => { m with memory }
  | .ledger writes =>
    update fun m => { m with objects := .ledger (⟨object, property, value⟩ :: writes) }

/-- The effect of an operation on the values of its operands.  Values beyond those an operation works on make no
difference. -/
def perform (op : Operation) (i : Instruction) (values : List UInt16) : Action Unit :=
  match op, values with
  | .je, a :: others => do
    let holds := others.contains a
    log (.equality values holds)
    branchIf i holds
  | .jl, a :: b :: _ => compare op i a b (Word.signed a < Word.signed b)
  | .jg, a :: b :: _ => compare op i a b (Word.signed b < Word.signed a)
  | .jz, a :: _ => branchIf i (a = 0)
  | .or, a :: b :: _ => combine op i a b (a ||| b)
  | .and, a :: b :: _ => combine op i a b (a &&& b)
  | .add, a :: b :: _ => calculate op i a b (.ok (a + b))
  | .sub, a :: b :: _ => calculate op i a b (.ok (a - b))
  | .mul, a :: b :: _ => calculate op i a b (.ok (a * b))
  | .div, a :: b :: _ => calculate op i a b (Word.divide a b)
  | .mod, a :: b :: _ => calculate op i a b (Word.remainder a b)
  | .store, name :: value :: _ => store name value
  | .load, name :: _ => load i name
  | .loadw, array :: index :: _ => loadWord i array index
  | .loadb, array :: index :: _ => loadByte i array index
  | .storew, array :: index :: value :: _ => storeWord array index value
  | .storeb, array :: index :: value :: _ => storeByte array index value
  | .push, value :: _ => do
    log (.pushing value)
    push value
  | .pull, name :: _ => pull name
  | .putProp, object :: property :: value :: _ => putProperty object (Word.low property) value
  | .jump, distance :: _ => jump distance
  | .call, routine :: arguments => callRoutine routine arguments i.store
  | .ret, value :: _ => returnValue value
  | .rtrue, _ => returnValue 1
  | .rfalse, _ => returnValue 0
  | .retPopped, _ => do returnValue (← pop)
  | .quit, _ => do log (.quitting (← machine).pc)
  | _, _ => ofExcept (.error (.missingOperands op.name op.entry.minOperands values.length))

end Action

end ZMachine
