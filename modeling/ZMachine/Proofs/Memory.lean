import ZMachine.Proofs.Report

/-!
# Reading and writing memory

When an access to memory succeeds, what it reads and what it changes.

* `Memory.readByte_eq_ok_iff`, `Memory.readWord_eq_ok_iff`: what a read that succeeds has found;
* `Memory.writeByte_eq_ok_iff`, `Memory.writeWord_eq_ok_iff`: a write succeeds if all its bytes lie inside the image and
  below the base of static memory;
* `Memory.getElem?_setByte`, `Memory.getElem?_setWord`: the bytes of an image after a write;
* `PropertyTable.findFrom_eq`, `PropertyTable.put_eq`, `PropertyTable.writes_of_put`: the walk through a list of properties;
  a property write is a write of a byte or of a word;
* `Machine.load_spec`, `Machine.exists_load`: what a story is when it has been loaded, and that it can be.
-/

namespace ZMachine

namespace Memory

variable {m m' : Memory} {address : Nat} {byte : UInt8} {word : UInt16}

theorem readByte_eq_ok_iff : m.readByte address = .ok byte ↔ m.bytes[address]? = some byte := by
  unfold readByte
  cases m.bytes[address]? <;> simp

theorem readWord_eq_ok_iff :
    m.readWord address = .ok word ↔
      ∃ hi lo, m.bytes[address]? = some hi ∧ m.bytes[address + 1]? = some lo ∧ word = Word.ofBytes hi lo := by
  unfold readWord
  simp only [bind_eq_ok_iff, readByte_eq_ok_iff]
  constructor
  · rintro ⟨hi, hhi, lo, hlo, h⟩
    cases h
    exact ⟨hi, lo, hhi, hlo, rfl⟩
  · rintro ⟨hi, lo, hhi, hlo, rfl⟩
    exact ⟨hi, hhi, lo, hlo, rfl⟩

theorem checkWritable_eq_ok_iff : m.checkWritable address = .ok () ↔ address < m.size ∧ address < m.staticBase := by
  unfold checkWritable
  by_cases hs : m.size ≤ address
  · rw [if_pos hs]
    exact ⟨nofun, fun h => absurd h.1 (Nat.not_lt.2 hs)⟩
  · rw [if_neg hs]
    by_cases hb : m.staticBase ≤ address
    · rw [if_pos hb]
      exact ⟨nofun, fun h => absurd h.2 (Nat.not_lt.2 hb)⟩
    · rw [if_neg hb]
      exact ⟨fun _ => ⟨Nat.not_le.1 hs, Nat.not_le.1 hb⟩, fun _ => rfl⟩

theorem checkWritableWord_eq_ok_iff :
    m.checkWritableWord address = .ok () ↔ address + 1 < m.size ∧ address + 1 < m.staticBase := by
  unfold checkWritableWord
  rw [bind_eq_ok_iff]
  constructor
  · rintro ⟨_, -, h⟩
    exact checkWritable_eq_ok_iff.1 h
  · rintro ⟨hs, hb⟩
    exact ⟨(), checkWritable_eq_ok_iff.2 ⟨by omega, by omega⟩, checkWritable_eq_ok_iff.2 ⟨hs, hb⟩⟩

theorem fault_of_checkWritable {fault : Fault} (h : m.checkWritable address = .error fault) :
    fault = .outOfBounds address m.size ∨ fault = .readOnly address m.staticBase := by
  unfold checkWritable at h
  split at h
  · cases h
    exact .inl rfl
  · split at h
    · cases h
      exact .inr rfl
    · cases h

theorem writeByte_eq_ok_iff :
    m.writeByte address byte = .ok m' ↔
      address < m.size ∧ address < m.staticBase ∧ m' = m.setByte address byte := by
  unfold writeByte
  rw [bind_eq_ok_iff]
  constructor
  · rintro ⟨_, hc, h⟩
    obtain ⟨hs, hb⟩ := checkWritable_eq_ok_iff.1 hc
    cases h
    exact ⟨hs, hb, rfl⟩
  · rintro ⟨hs, hb, rfl⟩
    exact ⟨(), checkWritable_eq_ok_iff.2 ⟨hs, hb⟩, rfl⟩

theorem writeWord_eq_ok_iff :
    m.writeWord address word = .ok m' ↔
      address + 1 < m.size ∧ address + 1 < m.staticBase ∧ m' = m.setWord address word := by
  unfold writeWord
  rw [bind_eq_ok_iff]
  constructor
  · rintro ⟨_, hc, h⟩
    obtain ⟨hs, hb⟩ := checkWritableWord_eq_ok_iff.1 hc
    cases h
    exact ⟨hs, hb, rfl⟩
  · rintro ⟨hs, hb, rfl⟩
    exact ⟨(), checkWritableWord_eq_ok_iff.2 ⟨hs, hb⟩, rfl⟩

/-- A write that fails names a byte that it cannot change. -/
theorem fault_of_writeByte {fault : Fault} (h : m.writeByte address byte = .error fault) :
    ∃ k, fault = .outOfBounds k m.size ∨ fault = .readOnly k m.staticBase := by
  rcases bind_eq_error_iff.1 h with h | ⟨_, -, h⟩
  · exact ⟨address, fault_of_checkWritable h⟩
  · cases h

theorem fault_of_writeWord {fault : Fault} (h : m.writeWord address word = .error fault) :
    ∃ k, fault = .outOfBounds k m.size ∨ fault = .readOnly k m.staticBase := by
  rcases bind_eq_error_iff.1 h with h | ⟨_, -, h⟩
  · rcases bind_eq_error_iff.1 h with h | ⟨_, -, h⟩
    · exact ⟨address, fault_of_checkWritable h⟩
    · exact ⟨address + 1, fault_of_checkWritable h⟩
  · cases h

theorem getElem?_setByte (m : Memory) (address : Nat) (byte : UInt8) (k : Nat) :
    (m.setByte address byte).bytes[k]? = if k = address ∧ k < m.size then some byte else m.bytes[k]? := by
  unfold setByte size
  rw [Array.getElem?_setIfInBounds]
  by_cases hk : address = k
  · subst hk
    by_cases hs : address < m.bytes.size <;> simp [hs]
  · rw [if_neg hk, if_neg (fun h => hk h.1.symm)]

theorem getElem?_setWord (m : Memory) (address : Nat) (word : UInt16) (k : Nat) :
    (m.setWord address word).bytes[k]? =
      if k = address + 1 ∧ k < m.size then some (Word.low word)
      else if k = address ∧ k < m.size then some (Word.high word)
      else m.bytes[k]? := by
  unfold setWord
  rw [getElem?_setByte, size_setByte, getElem?_setByte]

end Memory

/-- A memory after a write of a byte or of a word. -/
inductive Memory.Writes (m : Memory) : Memory → Prop
  | byte {address : Nat} {byte : UInt8} {m' : Memory} (h : m.writeByte address byte = .ok m') : Writes m m'
  | word {address : Nat} {word : UInt16} {m' : Memory} (h : m.writeWord address word = .ok m') : Writes m m'

/-- A step of the walk through a list of properties. -/
theorem PropertyTable.findFrom_eq (t : PropertyTable) (m : Memory) (object : UInt16) (property : UInt8) (address : Nat) :
    t.findFrom m object property address =
      m.readByte address >>= fun byte =>
        if byte = 0 then .error (.propertyNotFound object property)
        else t.entryAt m address >>= fun e =>
          if e.number = property then .ok ⟨address + e.headerSize, e.size⟩
          else t.findFrom m object property (address + (e.headerSize + e.size)) := by
  rw [findFrom]
  split
  · next fault hb => rw [hb, error_bind]
  · next byte hb =>
    rw [hb, ok_bind]
    split
    · rfl
    · split
      · next fault he => rw [he, error_bind]
      · next e he => rw [he, ok_bind]

/-- A property write, with the check of the place and the write taken together. -/
theorem PropertyTable.put_eq (t : PropertyTable) (m : Memory) (object : UInt16) (property : UInt8) (value : UInt16) :
    t.put m object property value =
      t.find m object property >>= fun slot =>
        if slot.size = 1 then m.writeByte slot.address (Word.low value)
        else if slot.size = 2 then m.writeWord slot.address value
        else .error (.propertyTooLarge object property slot.size) := by
  unfold put checkSlot fillSlot
  congr 1
  funext slot
  by_cases h1 : slot.size = 1
  · simp only [if_pos h1]
    rfl
  · by_cases h2 : slot.size = 2
    · simp only [if_neg h1, if_pos h2]
      rfl
    · simp only [if_neg h1, if_neg h2]
      rfl

/-- A property write writes the byte or the word where the property stands. -/
theorem PropertyTable.writes_of_put {t : PropertyTable} {m m' : Memory} {object value : UInt16} {property : UInt8}
    (h : t.put m object property value = .ok m') : m.Writes m' := by
  rw [put_eq] at h
  obtain ⟨slot, -, h⟩ := bind_eq_ok_iff.1 h
  split at h
  · exact .byte h
  · split at h
    · exact .word h
    · cases h

/-! ### Loading a story -/

namespace Memory

variable {m : Memory} {address : Nat}

theorem exists_readByte (h : address < m.size) : ∃ byte, m.readByte address = .ok byte :=
  ⟨m.bytes[address], readByte_eq_ok_iff.2 (Array.getElem?_eq_getElem h)⟩

theorem exists_readWord (h : address + 1 < m.size) : ∃ word, m.readWord address = .ok word := by
  obtain ⟨hi, hhi⟩ := exists_readByte (Nat.lt_of_succ_lt h)
  obtain ⟨lo, hlo⟩ := exists_readByte h
  exact ⟨Word.ofBytes hi lo, bind_eq_ok_iff.2 ⟨hi, hhi, bind_eq_ok_iff.2 ⟨lo, hlo, rfl⟩⟩⟩

theorem exists_readBytes {n : Nat} (h : address + n ≤ m.size) : ∃ bytes, m.readBytes address n = .ok bytes := by
  induction n generalizing address with
  | zero => exact ⟨[], rfl⟩
  | succ n ih =>
    obtain ⟨byte, hbyte⟩ := exists_readByte (show address < m.size by omega)
    obtain ⟨bytes, hbytes⟩ := ih (show address + 1 + n ≤ m.size by omega)
    exact ⟨byte :: bytes, bind_eq_ok_iff.2 ⟨byte, hbyte, bind_eq_ok_iff.2 ⟨bytes, hbytes, rfl⟩⟩⟩

end Memory

namespace Machine

/-- An image that is long enough has a header. -/
theorem exists_parse {memory : Memory} (hsize : headerSize ≤ memory.size) :
    ∃ header, Header.parse memory = .ok header := by
  have h : 34 ≤ memory.size := hsize
  have byte : ∀ address, address < 34 → ∃ byte, memory.readByte address = .ok byte :=
    fun address ha => Memory.exists_readByte (by omega)
  have word : ∀ address, address + 1 < 34 → ∃ word, memory.readWord address = .ok word :=
    fun address ha => Memory.exists_readWord (by omega)
  have serial : ∃ serial, memory.readSerial 18 = .ok serial := by
    obtain ⟨bytes, hbytes⟩ := Memory.exists_readBytes (show 18 + 6 ≤ memory.size by omega)
    exact ⟨_, bind_eq_ok_iff.2 ⟨bytes, hbytes, rfl⟩⟩
  obtain ⟨version, hversion⟩ := byte 0 (by decide)
  obtain ⟨flags, hflags⟩ := byte 1 (by decide)
  obtain ⟨release, hrelease⟩ := word 2 (by decide)
  obtain ⟨highMemory, hhigh⟩ := word 4 (by decide)
  obtain ⟨initialPc, hpc⟩ := word 6 (by decide)
  obtain ⟨dictionary, hdictionary⟩ := word 8 (by decide)
  obtain ⟨objects, hobjects⟩ := word 10 (by decide)
  obtain ⟨globals, hglobals⟩ := word 12 (by decide)
  obtain ⟨staticMemory, hstatic⟩ := word 14 (by decide)
  obtain ⟨gameFlags, hgame⟩ := word 16 (by decide)
  obtain ⟨serial, hserial⟩ := serial
  obtain ⟨abbreviations, habbreviations⟩ := word 24 (by decide)
  obtain ⟨lengthUnits, hlength⟩ := word 26 (by decide)
  obtain ⟨checksum, hchecksum⟩ := word 28 (by decide)
  unfold Header.parse
  simp only [if_neg (Nat.not_lt.2 hsize), hversion, hflags, hrelease, hhigh, hpc, hdictionary, hobjects, hglobals,
    hstatic, hgame, hserial, habbreviations, hlength, hchecksum, ok_bind]
  exact ⟨_, rfl⟩

/-- Every file that is long enough can be loaded. -/
theorem exists_load {bytes : Array UInt8} (h : headerSize ≤ bytes.size) : ∃ m, load bytes = .ok m := by
  obtain ⟨memory, hmemory, hbytes⟩ : ∃ memory, Memory.ofStory bytes = .ok memory ∧ memory.bytes = bytes :=
    ⟨_, if_neg (Nat.not_lt.2 h), rfl⟩
  obtain ⟨header, hheader⟩ : ∃ header, Header.parse memory = .ok header := by
    apply exists_parse
    rw [Memory.size, hbytes]
    exact h
  exact ⟨ofStory memory header, bind_eq_ok_iff.2 ⟨memory, hmemory, bind_eq_ok_iff.2 ⟨header, hheader, rfl⟩⟩⟩

theorem readWord_of_parse {memory : Memory} {header : Header} (h : Header.parse memory = .ok header) :
    memory.readWord 14 = .ok header.staticMemory := by
  unfold Header.parse at h
  split at h
  · cases h
  · simp only [bind_eq_ok_iff] at h
    obtain ⟨_, -, _, -, _, -, _, -, _, -, _, -, _, -, _, -, base, hbase, _, -, _, -, _, -, _, -, _, -, h⟩ := h
    cases h
    exact hbase

/-- What is known of a story that has just been loaded.  The base of static memory is read from the file once for the image
and once for the header, and is the same. -/
theorem load_spec {bytes : Array UInt8} {m : Machine} (h : load bytes = .ok m) :
    m = ofStory m.memory m.header ∧ m.memory.bytes = bytes ∧ Header.parse m.memory = .ok m.header ∧
      m.memory.staticBase = m.header.staticMemory.toNat := by
  obtain ⟨memory, hm, h⟩ := bind_eq_ok_iff.1 h
  obtain ⟨header, hh, h⟩ := bind_eq_ok_iff.1 h
  cases h
  unfold Memory.ofStory at hm
  split at hm
  · cases hm
  · cases hm
    obtain ⟨hi, lo, hhi, hlo, hbase⟩ := Memory.readWord_eq_ok_iff.1 (readWord_of_parse hh)
    refine ⟨rfl, rfl, hh, ?_⟩
    show (Word.ofBytes (bytes.getD 14 0) (bytes.getD 15 0)).toNat = header.staticMemory.toNat
    rw [hbase, Array.getD_eq_getD_getElem?, Array.getD_eq_getD_getElem?, hhi, hlo]
    rfl

end Machine

end ZMachine
