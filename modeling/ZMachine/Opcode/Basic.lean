/-!
# The coordinates of an opcode

An opcode is named by the table it stands in and its number there.  The table says how many operands its opcodes take,
and the form of an instruction how its opcode byte and operands are laid out.
-/

namespace ZMachine

/-- The four tables of opcodes, by number of operands. -/
inductive OperandCount where
  | zero
  | one
  | two
  | var
deriving DecidableEq, Repr

/-- The name of the table in listings. -/
def OperandCount.label : OperandCount → String
  | .zero => "0OP"
  | .one => "1OP"
  | .two => "2OP"
  | .var => "VAR"

/-- The name of the table as the field of a written record. -/
def OperandCount.tag : OperandCount → String
  | .zero => "OP0"
  | .one => "OP1"
  | .two => "OP2"
  | .var => "VAR"

/-- How an instruction is laid out. -/
inductive Form where
  /-- Two operands, whose types stand in the opcode byte. -/
  | long
  /-- At most one operand, whose type stands in the opcode byte. -/
  | short
  /-- Up to four operands, whose types stand in a byte of their own. -/
  | var
deriving DecidableEq, Repr

/-- The name of the form in listings. -/
def Form.label : Form → String
  | .long => "Long"
  | .short => "Short"
  | .var => "Variable"

/-- The top two bits of the opcode byte choose the form. -/
def Form.ofOpcode (opcode : UInt8) : Form :=
  match opcode.toNat / 64 with
  | 3 => .var
  | 2 => .short
  | _ => .long

/-- The table an opcode byte refers to.  In the short form bits 5 and 4 both set mean no operand; in the variable form bit 5
tells the table of any number of operands from that of two. -/
def OperandCount.ofOpcode (opcode : UInt8) : OperandCount :=
  match Form.ofOpcode opcode with
  | .long => .two
  | .short => if opcode.toNat / 16 % 4 = 3 then .zero else .one
  | .var => if opcode.toNat / 32 % 2 = 0 then .two else .var

/-- The number an opcode byte gives within its table: four bits in the short form, five otherwise. -/
def Form.number (opcode : UInt8) : UInt8 :=
  match Form.ofOpcode opcode with
  | .short => UInt8.ofNat (opcode.toNat % 16)
  | _ => UInt8.ofNat (opcode.toNat % 32)

end ZMachine
