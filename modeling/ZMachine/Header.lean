import ZMachine.Memory

/-!
# The story header

The first bytes of a story say which version of the machine it is for and where its tables are.  `Header.parse` reads
them, `Header.text` lists them for a reader.
-/

namespace ZMachine

/-- The fields of a header. -/
structure Header where
  version : UInt8
  flags : UInt8
  release : UInt16
  /-- Base of high memory. -/
  highMemory : UInt16
  initialPc : UInt16
  dictionary : UInt16
  /-- Address of the object table. -/
  objects : UInt16
  /-- Address of the table of global variables. -/
  globals : UInt16
  /-- Base of static memory. -/
  staticMemory : UInt16
  /-- The flags that the story itself may change. -/
  gameFlags : UInt16
  /-- Six characters, any byte taken as a character. -/
  serial : List Char
  abbreviations : UInt16
  /-- Length of the file, in units that depend on the version. -/
  lengthUnits : UInt16
  checksum : UInt16
deriving DecidableEq, Repr

namespace Header

/-- Read the fields from an image of at least 34 bytes. -/
def parse (m : Memory) : Except Fault Header := do
  if m.size < headerSize then
    throw (.truncated .header headerSize m.size)
  return {
    version := ← m.readByte 0
    flags := ← m.readByte 1
    release := ← m.readWord 2
    highMemory := ← m.readWord 4
    initialPc := ← m.readWord 6
    dictionary := ← m.readWord 8
    objects := ← m.readWord 10
    globals := ← m.readWord 12
    staticMemory := ← m.readWord 14
    gameFlags := ← m.readWord 16
    serial := ← m.readSerial 18
    abbreviations := ← m.readWord 24
    lengthUnits := ← m.readWord 26
    checksum := ← m.readWord 28
  }

/-- The length of the file in bytes if a unit is a word. -/
def wordLength (h : Header) : Nat :=
  h.lengthUnits.toNat * 2

/-- Bytes in a unit of length: two in versions 1 to 3, four in versions 4 and 5, eight in all others. -/
def lengthScale (version : UInt8) : Nat :=
  if 1 ≤ version ∧ version ≤ 3 then 2 else if 4 ≤ version ∧ version ≤ 5 then 4 else 8

/-- The length of the file in bytes. -/
def fileSize (h : Header) : Nat :=
  h.lengthUnits.toNat * lengthScale h.version

open Text in
/-- The fields, a line for each, between two line breaks. -/
def text (h : Header) : String :=
  String.join <| ["\n",
    s!"Z-code version:           {h.version}\n",
    s!"Interpreter flags:        {marked 2 h.flags.toNat}\n",
    s!"Release number:           {h.release}\n",
    s!"Size of resident memory:  {marked 4 h.highMemory.toNat}\n",
    s!"Start PC:                 {marked 4 h.initialPc.toNat}\n",
    s!"Dictionary address:       {marked 4 h.dictionary.toNat}\n",
    s!"Object table address:     {marked 4 h.objects.toNat}\n",
    s!"Global variables address: {marked 4 h.globals.toNat}\n",
    s!"Size of dynamic memory:   {marked 4 h.staticMemory.toNat}\n",
    s!"Game flags:               {marked 4 h.gameFlags.toNat}\n",
    s!"Serial number:            {String.ofList h.serial}\n",
    s!"Abbreviations address:    {marked 4 h.abbreviations.toNat}\n",
    s!"File size:                {marked 4 h.fileSize}\n",
    s!"Checksum:                 {marked 4 h.checksum.toNat}\n"]

end Header

end ZMachine
