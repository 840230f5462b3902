import ZMachine.Memory

/-!
# Variables and operands

A variable number names the top of the evaluation stack, a local of the running routine or a global.  An operand is a
constant or a variable; its kind, two bits of the instruction, says how many bytes it takes.

* `Variable.ofNumber`, `Variable.number`: a variable and its number;
* `OperandKind.ofTypeByte`: the four kinds packed in a byte;
* `Operand.decode`: the operands at an address, given their kinds.
-/

namespace ZMachine

/-- Where a value is kept. -/
inductive Variable where
  /-- The top of the evaluation stack. -/
  | stack
  /-- A local of the running routine; slots count from zero. -/
  | localSlot (slot : UInt8)
  /-- A global; indices count from zero. -/
  | globalCell (index : UInt8)
deriving DecidableEq, Repr

namespace Variable

/-- Number 0 is the stack, 1 to 15 are the locals, 16 to 255 the globals. -/
def ofNumber (number : UInt8) : Variable :=
  if number = 0 then .stack
  else if number < 16 then .localSlot (number - 1)
  else .globalCell (number - 16)

/-- The number of a variable. -/
def number : Variable → UInt8
  | .stack => 0
  | .localSlot slot => slot + 1
  | .globalCell index => index + 16

/-- The variable in listings. -/
def text : Variable → String
  | .stack => "sp"
  | .localSlot slot => "L" ++ Text.hex 2 slot.toNat
  | .globalCell index => "G" ++ Text.hex 2 index.toNat

@[simp]
theorem number_ofNumber (n : UInt8) : (ofNumber n).number = n := by
  unfold ofNumber
  split
  · simp_all [number]
  · split <;> simp [number]

end Variable

/-- The kinds of operand, and the mark that there is none. -/
inductive OperandKind where
  | large
  | small
  | var
  | omitted
deriving DecidableEq, Repr

namespace OperandKind

/-- The name of the kind in listings. -/
def label : OperandKind → String
  | .large => "LargeConstant"
  | .small => "SmallConstant"
  | .var => "Variable"
  | .omitted => "Omitted"

/-- The kind with a given code, taken from the lowest two bits. -/
def ofBits (bits : UInt8) : OperandKind :=
  match bits.toNat % 4 with
  | 0 => .large
  | 1 => .small
  | 2 => .var
  | _ => .omitted

/-- The number of bytes an operand takes. -/
def size : OperandKind → Nat
  | .large => 2
  | .small => 1
  | .var => 1
  | .omitted => 0

/-- The four kinds in a byte, the highest bits first. -/
def ofTypeByte (types : UInt8) : List OperandKind :=
  [ofBits (types >>> 6), ofBits (types >>> 4), ofBits (types >>> 2), ofBits types]

end OperandKind

/-- An operand as it stands in an instruction. -/
inductive Operand where
  | large (value : UInt16)
  | small (value : UInt8)
  | var (source : Variable)
deriving DecidableEq, Repr

namespace Operand

/-- The most operands an instruction has. -/
def limit : Nat := 4

/-- The kind of an operand. -/
def kind : Operand → OperandKind
  | .large _ => .large
  | .small _ => .small
  | .var _ => .var

/-- The number that encodes the operand: the constant itself, or the number of the variable. -/
def raw : Operand → UInt16
  | .large value => value
  | .small value => value.toUInt16
  | .var source => source.number.toUInt16

/-- The operand in listings. -/
def text : Operand → String
  | .large value => "#" ++ Text.hex 4 value.toNat
  | .small value => "#" ++ Text.hex 2 value.toNat
  | .var source => source.text

/-- The operands of the given kinds from an address on, up to the first omitted one, with the address after them. -/
def readAll (m : Memory) (address : Nat) : List OperandKind → Except Fault (List Operand × Nat)
  | [] => .ok ([], address)
  | .omitted :: _ => .ok ([], address)
  | .large :: kinds => do
    let hi ← m.codeByte .largeConstant address
    let lo ← m.codeByte .largeConstant (address + 1)
    let (operands, next) ← readAll m (address + 2) kinds
    return (.large (Word.ofBytes hi lo) :: operands, next)
  | .small :: kinds => do
    let byte ← m.codeByte .smallConstant address
    let (operands, next) ← readAll m (address + 1) kinds
    return (.small byte :: operands, next)
  | .var :: kinds => do
    let byte ← m.codeByte .variableNumber address
    let (operands, next) ← readAll m (address + 1) kinds
    return (.var (.ofNumber byte) :: operands, next)

/-- The operands at an address, at most four, with the address after them. -/
def decode (m : Memory) (address : Nat) (kinds : List OperandKind) : Except Fault (List Operand × Nat) :=
  readAll m address (kinds.take limit)

end Operand

end ZMachine
