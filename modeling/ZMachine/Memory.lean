import ZMachine.Fault
import ZMachine.Word

/-!
# Story memory

The image of a story is a row of bytes.  Every byte of it can be read; only those below the base of static memory can be
written.  A write checks all the bytes it covers before it changes the first of them.

* `Memory.readByte`, `Memory.readWord`: reading, with the address of the first missing byte on failure;
* `Memory.writeByte`, `Memory.writeWord`: writing, a word with its high byte first;
* `Memory.codeByte`: reading a byte of an instruction, where the end of the image means a cut file;
* `Memory.checksum`: the sum of the bytes that follow the header area.
-/

namespace ZMachine

/-- Least size of a story file: the part of the header that is read. -/
def headerSize : Nat := 34

/-- The image of a story. -/
structure Memory where
  bytes : Array UInt8
  /-- First address that cannot be written. -/
  staticBase : Nat
deriving DecidableEq, Repr

namespace Memory

/-- The number of bytes in the image. -/
def size (m : Memory) : Nat :=
  m.bytes.size

/-- The number of bytes that can be written. -/
def dynamicSize (m : Memory) : Nat :=
  min m.staticBase m.size

/-- Wrap a story file; the base of static memory is the word at address 14. -/
def ofStory (bytes : Array UInt8) : Except Fault Memory :=
  if bytes.size < headerSize then
    .error (.truncated .header headerSize bytes.size)
  else
    .ok ⟨bytes, (Word.ofBytes (bytes.getD 14 0) (bytes.getD 15 0)).toNat⟩

/-! ### Reading -/

/-- The byte at an address. -/
def readByte (m : Memory) (address : Nat) : Except Fault UInt8 :=
  match m.bytes[address]? with
  | some byte => .ok byte
  | none => .error (.outOfBounds address m.size)

/-- The word whose high byte is at an address. -/
def readWord (m : Memory) (address : Nat) : Except Fault UInt16 := do
  let hi ← m.readByte address
  let lo ← m.readByte (address + 1)
  return Word.ofBytes hi lo

/-- As many bytes as asked for, from an address on. -/
def readBytes (m : Memory) (address : Nat) : Nat → Except Fault (List UInt8)
  | 0 => .ok []
  | n + 1 => do
    let byte ← m.readByte address
    let rest ← m.readBytes (address + 1) n
    return byte :: rest

/-- As many words as asked for, from an address on. -/
def readWords (m : Memory) (address : Nat) : Nat → Except Fault (List UInt16)
  | 0 => .ok []
  | n + 1 => do
    let word ← m.readWord address
    let rest ← m.readWords (address + 2) n
    return word :: rest

/-- Six bytes, each as the character with its number. -/
def readSerial (m : Memory) (address : Nat) : Except Fault (List Char) := do
  let bytes ← m.readBytes address 6
  return bytes.map fun byte => Char.ofNat byte.toNat

/-- A byte of an instruction.  An image that ends before it is a cut file. -/
def codeByte (m : Memory) (part : Part) (address : Nat) : Except Fault UInt8 :=
  match m.bytes[address]? with
  | some byte => .ok byte
  | none => .error (.truncated part (address + 1) m.size)

/-! ### Writing -/

/-- Whether the byte at an address can be written, and if not, why. -/
def checkWritable (m : Memory) (address : Nat) : Except Fault Unit :=
  if m.size ≤ address then .error (.outOfBounds address m.size)
  else if m.staticBase ≤ address then .error (.readOnly address m.staticBase)
  else .ok ()

/-- Whether both bytes of a word can be written: the first byte is checked in full before the second. -/
def checkWritableWord (m : Memory) (address : Nat) : Except Fault Unit := do
  m.checkWritable address
  m.checkWritable (address + 1)

/-- The image with another byte at an address; no change where there is no such byte. -/
def setByte (m : Memory) (address : Nat) (byte : UInt8) : Memory :=
  { m with bytes := m.bytes.setIfInBounds address byte }

/-- The image with another word at an address. -/
def setWord (m : Memory) (address : Nat) (word : UInt16) : Memory :=
  (m.setByte address (Word.high word)).setByte (address + 1) (Word.low word)

/-- Write a byte to dynamic memory. -/
def writeByte (m : Memory) (address : Nat) (byte : UInt8) : Except Fault Memory := do
  m.checkWritable address
  return m.setByte address byte

/-- Write a word to dynamic memory, both of its bytes or neither. -/
def writeWord (m : Memory) (address : Nat) (word : UInt16) : Except Fault Memory := do
  m.checkWritableWord address
  return m.setWord address word

/-! ### The checksum -/

/-- First address that the checksum covers. -/
def checksumStart : Nat := 64

/-- The sum, modulo 65536, of the bytes from address 64 up to the length of the file or the end of the image. -/
def checksum (m : Memory) (fileLength : Nat) : UInt16 :=
  (m.bytes.extract checksumStart (min fileLength m.size)).foldl (fun sum byte => sum + byte.toUInt16) 0

/-! ### Writes keep the shape -/

@[simp]
theorem size_setByte (m : Memory) (address : Nat) (byte : UInt8) : (m.setByte address byte).size = m.size := by
  simp [setByte, size]

@[simp]
theorem size_setWord (m : Memory) (address : Nat) (word : UInt16) : (m.setWord address word).size = m.size := by
  simp [setWord]

end Memory

end ZMachine
