import ZMachine.Operand
import ZMachine.Opcode.Operation

/-!
# Instructions

An instruction is an opcode byte, in the variable form a byte of operand types, the operands, and then, as the operation
has it, a store variable and a branch.

* `Instruction.decode`: the part up to the operands, which needs no knowledge of the operation;
* `Instruction.readStore`, `Instruction.readBranch`: the two tails;
* `Instruction.fetch`: the whole instruction at an address with the operation it asks for;
* `Instruction.text`: the instruction in listings.
-/

namespace ZMachine

/-- When an instruction branches and how far. -/
structure Branch where
  /-- The outcome of the test on which the branch is taken. -/
  onTrue : Bool
  /-- A distance, but 0 and 1 stand for a return with that value. -/
  offset : Int
deriving DecidableEq, Repr

/-- Where a branch leads when it is taken. -/
inductive Destination where
  | returnFalse
  | returnTrue
  | jump (pc : UInt32)
deriving DecidableEq, Repr

/-- Where a jump over a distance leads: the distance counts from two bytes before the next instruction, and addresses wrap
at 32 bits. -/
def jumpTarget (nextPc : UInt32) (offset : Int) : UInt32 :=
  UInt32.ofInt (nextPc.toNat + offset - 2)

namespace Branch

/-- Where the branch leads, given the address of the next instruction. -/
def destination (b : Branch) (nextPc : UInt32) : Destination :=
  if b.offset = 0 then .returnFalse
  else if b.offset = 1 then .returnTrue
  else .jump (jumpTarget nextPc b.offset)

/-- The fourteen bits in two branch bytes, read as a signed number. -/
def longOffset (first second : UInt8) : Int :=
  let bits := first.toNat % 64 * 256 + second.toNat
  if bits < 8192 then bits else bits - 16384

/-- The branch in listings. -/
def text (b : Branch) : String :=
  let distance :=
    if b.offset = 0 then "RFALSE" else if b.offset = 1 then "RTRUE" else Text.withSign b.offset
  (if b.onTrue then "TRUE" else "FALSE") ++ " " ++ distance

end Branch

/-- A decoded instruction. -/
structure Instruction where
  /-- Address of the opcode byte. -/
  address : UInt32
  opcode : UInt8
  /-- The number of the opcode within its table. -/
  number : UInt8
  form : Form
  count : OperandCount
  operands : List Operand
  /-- The number of the variable that takes the result. -/
  store : Option UInt8
  branch : Option Branch
  /-- Address of the first byte after the parts read so far. -/
  nextPc : UInt32
deriving DecidableEq, Repr

namespace Instruction

/-- The kinds of the two operands of the long form: bits 6 and 5 tell variables from small constants. -/
def longKinds (opcode : UInt8) : List OperandKind :=
  [if opcode.toNat / 64 % 2 = 1 then .var else .small, if opcode.toNat / 32 % 2 = 1 then .var else .small]

/-- The kind of the operand of the short form, if there is one: bits 5 and 4. -/
def shortKinds (opcode : UInt8) : List OperandKind :=
  match OperandCount.ofOpcode opcode with
  | .one => [.ofBits (opcode >>> 4)]
  | _ => []

/-- The operand kinds of the instruction at an address, and the address where its operands start. -/
def operandKinds (m : Memory) (address : Nat) (opcode : UInt8) : Except Fault (List OperandKind × Nat) :=
  match Form.ofOpcode opcode with
  | .long => .ok (longKinds opcode, address + 1)
  | .short => .ok (shortKinds opcode, address + 1)
  | .var => do
    let types ← m.codeByte .operandTypes (address + 1)
    return (OperandKind.ofTypeByte types, address + 2)

/-- The instruction at an address up to its operands. -/
def decode (m : Memory) (address : Nat) : Except Fault Instruction := do
  let opcode ← m.codeByte .opcode address
  let (kinds, start) ← operandKinds m address opcode
  let (operands, next) ← Operand.decode m start kinds
  return {
    address := UInt32.ofNat address
    opcode
    number := Form.number opcode
    form := Form.ofOpcode opcode
    count := OperandCount.ofOpcode opcode
    operands
    store := none
    branch := none
    nextPc := UInt32.ofNat next
  }

/-- Read the store variable that follows. -/
def readStore (i : Instruction) (m : Memory) : Except Fault Instruction := do
  let number ← m.codeByte .storeVariable i.nextPc.toNat
  return { i with store := some number, nextPc := i.nextPc + 1 }

/-- A fault met while reading a branch, with the instruction as far as it was read. -/
structure Cut where
  fault : Fault
  soFar : Instruction
deriving DecidableEq, Repr

/-- Read the branch that follows: one byte with six bits of distance if bit 6 is set, else two bytes with fourteen. -/
def readBranch (i : Instruction) (m : Memory) : Except Cut Instruction :=
  match m.codeByte .branchOffset i.nextPc.toNat with
  | .error fault => .error ⟨fault, i⟩
  | .ok first =>
    let onTrue : Bool := first.toNat / 128 = 1
    let i := { i with nextPc := i.nextPc + 1 }
    if first.toNat / 64 % 2 = 1 then
      .ok { i with branch := some ⟨onTrue, (first.toNat % 64 : Nat)⟩ }
    else
      match m.codeByte .branchOffset i.nextPc.toNat with
      | .error fault => .error ⟨fault, i⟩
      | .ok second =>
        .ok { i with branch := some ⟨onTrue, Branch.longOffset first second⟩, nextPc := i.nextPc + 1 }

/-- Find the operation of a decoded instruction and read the tails it calls for. -/
def complete (i : Instruction) (m : Memory) : Except Fault (Instruction × Operation) := do
  match Operation.lookup? i.count i.number with
  | none => throw (.unimplemented i.opcode i.count i.number i.address)
  | some op =>
    let i ← if op.entry.stores then i.readStore m else pure i
    let i ← if op.entry.branches then (i.readBranch m).mapError Cut.fault else pure i
    return (i, op)

/-- The instruction at an address with its tails, and its operation. -/
def fetch (m : Memory) (address : Nat) : Except Fault (Instruction × Operation) := do
  let i ← decode m address
  i.complete m

/-- The number of bytes read. -/
def size (i : Instruction) : Nat :=
  (i.nextPc - i.address).toNat

/-- The variable that takes the result. -/
def target (i : Instruction) : Option Variable :=
  i.store.map Variable.ofNumber

/-- The mnemonic of the standard. -/
def name (i : Instruction) : String :=
  Standard.name i.count i.number

/-- The instruction in listings. -/
def text (i : Instruction) : String :=
  let operands :=
    if i.operands.isEmpty then "" else " " ++ ", ".intercalate (i.operands.map Operand.text)
  let store := match i.target with
    | some v => " -> " ++ v.text
    | none => ""
  let branch := match i.branch with
    | some b => " [" ++ b.text ++ "]"
    | none => ""
  i.name ++ operands ++ store ++ branch

end Instruction

end ZMachine
