import ZMachine.Header

/-!
# Property tables

The object table starts with the property defaults, followed by an entry for each object.  An entry points to the object's
property table: a short name and then the properties, each a header of one or two bytes that gives its number and size,
and its data.  A zero byte ends the list.

* `PropertyTable.find`: where the data of a property stands;
* `PropertyTable.put`: overwriting the data of a property of one or two bytes.
-/

namespace ZMachine

/-- A table of objects laid out as in a version of the standard. -/
structure PropertyTable where
  version : UInt8
  /-- Address of the object table. -/
  address : Nat
deriving DecidableEq, Repr

/-- Where the data of a property stands. -/
structure Slot where
  address : Nat
  size : Nat
deriving DecidableEq, Repr

namespace PropertyTable

/-- The table that a header points to. -/
def ofHeader (h : Header) : PropertyTable :=
  ⟨h.version, h.objects.toNat⟩

/-- Whether the layout is that of versions 1 to 3. -/
def isSmall (t : PropertyTable) : Bool :=
  t.version ≤ 3

/-- The highest object number. -/
def maxObject (t : PropertyTable) : Nat :=
  if t.isSmall then 255 else 65535

/-- The number of property defaults, a word each. -/
def defaults (t : PropertyTable) : Nat :=
  if t.isSmall then 31 else 63

/-- The size of an object's entry. -/
def entrySize (t : PropertyTable) : Nat :=
  if t.isSmall then 9 else 14

/-- Where in an object's entry the pointer to its properties stands. -/
def pointerOffset (t : PropertyTable) : Nat :=
  if t.isSmall then 7 else 12

/-- The address of an object's entry; objects count from one. -/
def objectAddress (t : PropertyTable) (object : UInt16) : Except Fault Nat :=
  if object = 0 ∨ t.maxObject < object.toNat then .error (.invalidObject object)
  else .ok (t.address + t.defaults * 2 + (object.toNat - 1) * t.entrySize)

/-- The header of a property. -/
structure Entry where
  number : UInt8
  /-- Size of the data. -/
  size : Nat
  /-- Size of the header itself. -/
  headerSize : Nat
deriving DecidableEq, Repr

/-- The header of the property at an address.  In the small layout a byte holds the number in its low five bits and the size
less one above them.  In the other the number takes six bits; bit 7 calls for a second byte with the size, where 0 means
64, and without it bit 6 tells two bytes of data from one. -/
def entryAt (t : PropertyTable) (m : Memory) (address : Nat) : Except Fault Entry := do
  let first ← m.readByte address
  if t.isSmall then
    return ⟨UInt8.ofNat (first.toNat % 32), first.toNat / 32 + 1, 1⟩
  else
    let number := UInt8.ofNat (first.toNat % 64)
    if first.toNat / 128 = 1 then
      let second ← m.readByte (address + 1)
      let size := second.toNat % 64
      return ⟨number, if size = 0 then 64 else size, 2⟩
    else
      return ⟨number, if first.toNat / 64 % 2 = 1 then 2 else 1, 1⟩

theorem lt_size_of_readByte {m : Memory} {address : Nat} {byte : UInt8} (h : m.readByte address = .ok byte) :
    address < m.size := by
  unfold Memory.readByte at h
  split at h
  · next hb => exact (Array.getElem?_eq_some_iff.1 hb).1
  · cases h

theorem entryAt_headerSize_pos {t : PropertyTable} {m : Memory} {address : Nat} {e : Entry}
    (h : t.entryAt m address = .ok e) : 0 < e.headerSize := by
  unfold entryAt at h
  simp only [bind, Except.bind, pure, Except.pure] at h
  repeat' split at h
  all_goals cases h
  all_goals exact Nat.succ_pos _

/-- The data of the property with a number, in the list that goes on at an address.  The list ends in a zero byte; a list
that does not end runs off the image, so the search stops in either case. -/
def findFrom (t : PropertyTable) (m : Memory) (object : UInt16) (property : UInt8) (address : Nat) :
    Except Fault Slot :=
  match _hb : m.readByte address with
  | .error fault => .error fault
  | .ok byte =>
    if byte = 0 then .error (.propertyNotFound object property)
    else
      match _he : t.entryAt m address with
      | .error fault => .error fault
      | .ok e =>
        if e.number = property then .ok ⟨address + e.headerSize, e.size⟩
        else t.findFrom m object property (address + (e.headerSize + e.size))
termination_by m.size - address
decreasing_by
  have := lt_size_of_readByte _hb
  have := entryAt_headerSize_pos _he
  omega

/-- Where the data of an object's property stands. -/
def find (t : PropertyTable) (m : Memory) (object : UInt16) (property : UInt8) : Except Fault Slot := do
  let entry ← t.objectAddress object
  let properties ← m.readWord (entry + t.pointerOffset)
  let nameWords ← m.readByte properties.toNat
  t.findFrom m object property (properties.toNat + 1 + nameWords.toNat * 2)

/-- Whether a slot can take a value: its size must be one or two, and its bytes writable. -/
def checkSlot (m : Memory) (object : UInt16) (property : UInt8) (slot : Slot) : Except Fault Unit :=
  if slot.size = 1 then m.checkWritable slot.address
  else if slot.size = 2 then m.checkWritableWord slot.address
  else .error (.propertyTooLarge object property slot.size)

/-- The image with a value in a slot: its low byte if the slot has one byte, the whole word otherwise. -/
def fillSlot (m : Memory) (slot : Slot) (value : UInt16) : Memory :=
  if slot.size = 1 then m.setByte slot.address (Word.low value) else m.setWord slot.address value

/-- Overwrite a property. -/
def put (t : PropertyTable) (m : Memory) (object : UInt16) (property : UInt8) (value : UInt16) : Except Fault Memory := do
  let slot ← t.find m object property
  checkSlot m object property slot
  return fillSlot m slot value

end PropertyTable

end ZMachine
