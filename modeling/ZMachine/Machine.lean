import ZMachine.CallStack
import ZMachine.Property

/-!
# The machine

The state of a story in execution: its memory and header, the address of the next instruction, the frames of the running
routines, the object model that property writes go to, and how many instructions have been completed.
-/

namespace ZMachine

/-- A property write as it was asked for. -/
structure PropertyWrite where
  object : UInt16
  property : UInt8
  value : UInt16
deriving DecidableEq, Repr

/-- What takes property writes. -/
inductive ObjectModel where
  /-- The object table of the story. -/
  | table (table : PropertyTable)
  /-- A ledger outside the story: it accepts every write and keeps it, the latest first. -/
  | ledger (writes : List PropertyWrite)
deriving DecidableEq, Repr

/-- A story in execution. -/
structure Machine where
  memory : Memory
  /-- The header as it was when the story was loaded. -/
  header : Header
  /-- Address of the next instruction. -/
  pc : UInt32
  calls : CallStack
  objects : ObjectModel
  /-- Number of instructions completed. -/
  executed : Nat
deriving DecidableEq, Repr

namespace Machine

/-- The machine at the start of a story. -/
def ofStory (memory : Memory) (header : Header) : Machine where
  memory
  header
  pc := header.initialPc.toUInt32
  calls := .start
  objects := .table (.ofHeader header)
  executed := 0

/-- Load a story file. -/
def load (bytes : Array UInt8) : Except Fault Machine := do
  let memory ← Memory.ofStory bytes
  let header ← Header.parse memory
  return ofStory memory header

/-- Start the story over: address and frames are those of the start, memory and counter stay as they are. -/
def reset (m : Machine) : Machine :=
  { m with pc := m.header.initialPc.toUInt32, calls := .start }

/-- The version of the story. -/
def version (m : Machine) : UInt8 :=
  m.header.version

/-- Bytes in a unit of packed addresses: two in versions 1 to 3, four in versions 4 to 7, eight in all others. -/
def packingUnit (version : UInt8) : Nat :=
  if 1 ≤ version ∧ version ≤ 3 then 2 else if 4 ≤ version ∧ version ≤ 7 then 4 else 8

/-- The address that a packed routine address stands for. -/
def unpack (m : Machine) (packed : UInt16) : Nat :=
  packed.toNat * packingUnit m.version

/-- Address of a global variable: a table of words at the address that the header gives. -/
def globalAddress (m : Machine) (index : UInt8) : Nat :=
  m.header.globals.toNat + index.toNat * 2

end Machine

end ZMachine
