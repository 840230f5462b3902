import ZMachine.Proofs.Memory
import ZMachine.Proofs.Reading

/-!
# The fields of the header

The header is fourteen fields, each at an offset of its own.  They stand one after the other and fill the first thirty
bytes of an image, so that the fields determine these bytes and are determined by them.

* `Header.layout`: the offset and the bytes of each field;
* `Tiles`, `Header.tiles_layout`: the fields stand one after the other;
* `Header.parse_eq_ok_iff`: a header is read from an image that holds its fields;
* `Header.writeTo`, `Header.holds_writeTo`: writing the fields to an image;
* `Header.header_round_trip`: reading and writing are inverse.
-/

namespace ZMachine

/-! ### Bytes written one after the other -/

namespace Memory

variable {m : Memory} {address : Nat}

/-- The image with other bytes from an address on; bytes past its end are dropped. -/
def setBytes (m : Memory) (address : Nat) : List UInt8 → Memory
  | [] => m
  | byte :: bytes => (m.setByte address byte).setBytes (address + 1) bytes

theorem setBytes_append (m : Memory) (address : Nat) (bytes more : List UInt8) :
    m.setBytes address (bytes ++ more) = (m.setBytes address bytes).setBytes (address + bytes.length) more := by
  induction bytes generalizing m address with
  | nil => rfl
  | cons byte bytes ih =>
    rw [List.cons_append, setBytes, setBytes, ih, List.length_cons, Nat.add_right_comm, ← Nat.add_assoc]

theorem getElem?_setBytes_of_lt (m : Memory) (bytes : List UInt8) {k : Nat} (h : k < address) :
    (m.setBytes address bytes).bytes[k]? = m.bytes[k]? := by
  induction bytes generalizing m address with
  | nil => rfl
  | cons byte bytes ih =>
    rw [setBytes, ih _ (Nat.lt_succ_of_lt h), getElem?_setByte, if_neg (by omega)]

/-- Bytes that have been written stand where they were written. -/
theorem holds_setBytes {bytes : List UInt8} (h : address + bytes.length ≤ m.size) :
    (m.setBytes address bytes).Holds address bytes := by
  induction bytes generalizing m address with
  | nil => exact holds_nil _ _
  | cons byte bytes ih =>
    rw [List.length_cons] at h
    rw [setBytes, ← List.singleton_append, holds_append, holds_singleton]
    constructor
    · rw [getElem?_setBytes_of_lt _ _ (Nat.lt_succ_self address), getElem?_setByte, if_pos ⟨rfl, by omega⟩]
    · exact ih (by rw [size_setByte]; omega)

/-! ### Reading what stands in an image -/

theorem readByte_eq_ok_iff_holds {byte : UInt8} : m.readByte address = .ok byte ↔ m.Holds address [byte] := by
  rw [readByte_eq_ok_iff, holds_singleton]

theorem readWord_eq_ok_iff_holds {word : UInt16} :
    m.readWord address = .ok word ↔ m.Holds address [Word.high word, Word.low word] := by
  rw [readWord_eq_ok_iff, ← List.singleton_append, holds_append, holds_singleton, List.length_singleton, holds_singleton]
  constructor
  · rintro ⟨hi, lo, hhi, hlo, rfl⟩
    rw [Word.high_ofBytes, Word.low_ofBytes]
    exact ⟨hhi, hlo⟩
  · rintro ⟨hhi, hlo⟩
    exact ⟨_, _, hhi, hlo, (Word.ofBytes_high_low word).symm⟩

theorem readBytes_eq_ok_iff {n : Nat} {bytes : List UInt8} :
    m.readBytes address n = .ok bytes ↔ bytes.length = n ∧ m.Holds address bytes := by
  induction n generalizing address bytes with
  | zero =>
    rw [readBytes, List.length_eq_zero_iff]
    constructor
    · intro h
      cases h
      exact ⟨rfl, holds_nil m address⟩
    · rintro ⟨rfl, -⟩
      rfl
  | succ n ih =>
    simp only [readBytes, bind_eq_ok_iff, readByte_eq_ok_iff, ih]
    constructor
    · rintro ⟨byte, hbyte, rest, ⟨hlength, hrest⟩, h⟩
      cases h
      rw [List.length_cons, hlength, ← List.singleton_append, holds_append, holds_singleton]
      exact ⟨rfl, hbyte, hrest⟩
    · rintro ⟨hlength, h⟩
      obtain ⟨byte, rest, rfl⟩ := List.exists_cons_of_length_eq_add_one hlength
      rw [← List.singleton_append, holds_append, holds_singleton] at h
      exact ⟨byte, h.1, rest, ⟨Nat.succ.inj hlength, h.2⟩, rfl⟩

end Memory

/-! ### The serial number -/

/-- The byte of a character of the serial number. -/
def serialByte (c : Char) : UInt8 :=
  UInt8.ofNat c.toNat

theorem toNat_char (byte : UInt8) : (Char.ofNat byte.toNat).toNat = byte.toNat := by
  have hlt := byte.toNat_lt
  have hvalid : byte.toNat.isValidChar := .inl (by omega)
  rw [Char.ofNat, dif_pos hvalid]
  rfl

@[simp]
theorem serialByte_char (byte : UInt8) : serialByte (Char.ofNat byte.toNat) = byte := by
  rw [serialByte, toNat_char, UInt8.ofNat_toNat]

theorem char_serialByte {c : Char} (h : c.toNat < 256) : Char.ofNat (serialByte c).toNat = c := by
  rw [serialByte, UInt8.toNat_ofNat', Nat.mod_eq_of_lt h, Char.ofNat_toNat]

/-- **A serial number** is six characters below 256, one for each byte. -/
theorem Memory.readSerial_eq_ok_iff {m : Memory} {address : Nat} {serial : List Char} :
    m.readSerial address = .ok serial ↔
      (serial.length = 6 ∧ ∀ c ∈ serial, c.toNat < 256) ∧ m.Holds address (serial.map serialByte) := by
  simp only [readSerial, bind_eq_ok_iff, readBytes_eq_ok_iff]
  constructor
  · rintro ⟨bytes, ⟨hlength, hm⟩, h⟩
    cases h
    refine ⟨⟨by rw [List.length_map, hlength], fun c hc => ?_⟩, ?_⟩
    · obtain ⟨byte, -, rfl⟩ := List.mem_map.1 hc
      rw [toNat_char]
      exact byte.toNat_lt
    · rw [List.map_map]
      simpa [Function.comp_def] using hm
  · rintro ⟨⟨hlength, hchars⟩, hm⟩
    refine ⟨serial.map serialByte, ⟨by rw [List.length_map, hlength], hm⟩, ?_⟩
    have hback : (serial.map serialByte).map (fun byte => Char.ofNat byte.toNat) = serial := by
      rw [List.map_map]
      exact (List.map_congr_left fun c hc => char_serialByte (hchars c hc)).trans (List.map_id serial)
    rw [hback]
    rfl

/-! ### The layout -/

namespace Header

/-- Whether the fields can be written as bytes.  All of them can but a serial number that is too long, too short, or not of
characters of one byte. -/
structure Representable (h : Header) : Prop where
  length : h.serial.length = 6
  chars : ∀ c ∈ h.serial, c.toNat < 256

/-- The fields in the order of their offsets, each with its bytes.  Words have their high byte first. -/
def layout (h : Header) : List (Nat × List UInt8) :=
  [(0, [h.version]),
    (1, [h.flags]),
    (2, [Word.high h.release, Word.low h.release]),
    (4, [Word.high h.highMemory, Word.low h.highMemory]),
    (6, [Word.high h.initialPc, Word.low h.initialPc]),
    (8, [Word.high h.dictionary, Word.low h.dictionary]),
    (10, [Word.high h.objects, Word.low h.objects]),
    (12, [Word.high h.globals, Word.low h.globals]),
    (14, [Word.high h.staticMemory, Word.low h.staticMemory]),
    (16, [Word.high h.gameFlags, Word.low h.gameFlags]),
    (18, h.serial.map serialByte),
    (24, [Word.high h.abbreviations, Word.low h.abbreviations]),
    (26, [Word.high h.lengthUnits, Word.low h.lengthUnits]),
    (28, [Word.high h.checksum, Word.low h.checksum])]

/-- An image holds every field of the header at its offset. -/
def HeldBy (h : Header) (m : Memory) : Prop :=
  ∀ field ∈ h.layout, m.Holds field.1 field.2

/-- The image with every field of the header written at its offset. -/
def writeTo (h : Header) (m : Memory) : Memory :=
  h.layout.foldl (fun m field => m.setBytes field.1 field.2) m

variable {h : Header} {m : Memory}

/-- **A header is read from an image that holds its fields**, and from no other. -/
theorem parse_eq_ok_iff : parse m = .ok h ↔ headerSize ≤ m.size ∧ h.Representable ∧ h.HeldBy m := by
  by_cases hsize : m.size < headerSize
  · have hfails : parse m = .error (.truncated .header headerSize m.size) := by
      rw [parse, if_pos hsize]
      rfl
    rw [hfails]
    exact ⟨nofun, fun hh => absurd hsize (Nat.not_lt.2 hh.1)⟩
  · unfold parse
    simp only [if_neg hsize, bind_eq_ok_iff, Memory.readByte_eq_ok_iff_holds, Memory.readWord_eq_ok_iff_holds,
      Memory.readSerial_eq_ok_iff]
    simp only [HeldBy, layout, List.forall_mem_cons, List.not_mem_nil, false_implies, implies_true, and_true]
    constructor
    · rintro ⟨version, hversion, flags, hflags, release, hrelease, highMemory, hhigh, initialPc, hpc, dictionary, hdict,
        objects, hobjects, globals, hglobals, staticMemory, hstatic, gameFlags, hgame, serial, ⟨hserial, hbytes⟩,
        abbreviations, habbreviations, lengthUnits, hlength, checksum, hchecksum, hh⟩
      cases hh
      exact ⟨Nat.not_lt.1 hsize, ⟨hserial.1, hserial.2⟩, hversion, hflags, hrelease, hhigh, hpc, hdict, hobjects, hglobals,
        hstatic, hgame, hbytes, habbreviations, hlength, hchecksum⟩
    · rintro ⟨-, hserial, hversion, hflags, hrelease, hhigh, hpc, hdict, hobjects, hglobals, hstatic, hgame, hbytes,
        habbreviations, hlength, hchecksum⟩
      exact ⟨_, hversion, _, hflags, _, hrelease, _, hhigh, _, hpc, _, hdict, _, hobjects, _, hglobals, _, hstatic, _, hgame,
        _, ⟨⟨hserial.length, hserial.chars⟩, hbytes⟩, _, habbreviations, _, hlength, _, hchecksum, rfl⟩

end Header

/-! ### Fields that stand one after the other -/

/-- The fields stand one after the other from an offset on. -/
def Tiles : Nat → List (Nat × List UInt8) → Prop
  | _, [] => True
  | start, field :: fields => field.1 = start ∧ Tiles (start + field.2.length) fields

namespace Tiles

variable {start : Nat} {fields : List (Nat × List UInt8)}

/-- An image holds such fields if it holds their bytes in one piece. -/
theorem holds_iff {m : Memory} (ht : Tiles start fields) :
    (∀ field ∈ fields, m.Holds field.1 field.2) ↔ m.Holds start (fields.flatMap Prod.snd) := by
  induction fields generalizing start with
  | nil => exact ⟨fun _ => Memory.holds_nil m start, nofun⟩
  | cons field fields ih =>
    obtain ⟨rfl, hrest⟩ := ht
    rw [List.forall_mem_cons, List.flatMap_cons, Memory.holds_append, ih hrest]

/-- Writing such fields is writing their bytes in one piece. -/
theorem foldl_setBytes (ht : Tiles start fields) (m : Memory) :
    fields.foldl (fun m field => m.setBytes field.1 field.2) m = m.setBytes start (fields.flatMap Prod.snd) := by
  induction fields generalizing start m with
  | nil => rfl
  | cons field fields ih =>
    obtain ⟨rfl, hrest⟩ := ht
    rw [List.foldl_cons, List.flatMap_cons, Memory.setBytes_append, ih hrest]

end Tiles

namespace Header

variable {h : Header} {m m' : Memory}

/-- The bytes of the header in one piece. -/
def encode (h : Header) : List UInt8 :=
  h.layout.flatMap Prod.snd

/-- **The fields of the header stand one after the other** from the first byte on. -/
theorem tiles_layout (hr : h.Representable) : Tiles 0 h.layout := by
  simp [layout, Tiles, hr.length]

/-- They take thirty bytes. -/
theorem length_encode (hr : h.Representable) : h.encode.length = 30 := by
  simp [encode, layout, hr.length]

theorem heldBy_iff (hr : h.Representable) : h.HeldBy m ↔ m.Holds 0 h.encode :=
  (tiles_layout hr).holds_iff

theorem writeTo_eq (hr : h.Representable) (m : Memory) : h.writeTo m = m.setBytes 0 h.encode :=
  (tiles_layout hr).foldl_setBytes m

/-- An image holds the fields of a header that has been written to it. -/
theorem heldBy_writeTo (hr : h.Representable) (hsize : 30 ≤ m.size) : h.HeldBy (h.writeTo m) := by
  rw [heldBy_iff hr, writeTo_eq hr]
  apply Memory.holds_setBytes
  rw [length_encode hr]
  omega

/-- Two images that hold the same header agree on their first thirty bytes. -/
theorem HeldBy.getElem?_eq (hh : h.HeldBy m) (hh' : h.HeldBy m') (hr : h.Representable) {k : Nat} (hk : k < 30) :
    m'.bytes[k]? = m.bytes[k]? := by
  rw [heldBy_iff hr] at hh hh'
  have hlt : k < h.encode.length := by
    rw [length_encode hr]
    exact hk
  have hbyte := hh k hlt
  have hbyte' := hh' k hlt
  rw [Nat.zero_add] at hbyte hbyte'
  rw [hbyte, hbyte']

/-- An image that agrees with another on the first thirty bytes holds the same header. -/
theorem HeldBy.congr (hh : h.HeldBy m) (hr : h.Representable)
    (hagree : ∀ k, k < 30 → m'.bytes[k]? = m.bytes[k]?) : h.HeldBy m' := by
  rw [heldBy_iff hr] at hh ⊢
  refine hh.congr fun k _ hk => hagree k ?_
  rw [length_encode hr] at hk
  omega

/-! ### Loading -/

/-- The header of a story that has been loaded is the one that its image holds. -/
theorem heldBy_of_load {machine : Machine} (hload : Machine.load m.bytes = .ok machine) :
    34 ≤ m.size ∧ machine.header.Representable ∧ machine.header.HeldBy m ∧
      machine.memory.staticBase = machine.header.staticMemory.toNat := by
  obtain ⟨-, hbytes, hparse, hbase⟩ := Machine.load_spec hload
  obtain ⟨hsize, hr, hheld⟩ := parse_eq_ok_iff.1 hparse
  rw [Memory.size, hbytes] at hsize
  refine ⟨hsize, hr, hheld.congr hr fun k _ => ?_, hbase⟩
  rw [hbytes]

/-- An image cannot hold two headers. -/
theorem HeldBy.unique {h' : Header} (hh : h.HeldBy m) (hh' : h'.HeldBy m) (hr : h.Representable)
    (hr' : h'.Representable) (hsize : 34 ≤ m.size) : h = h' := by
  have hparse := parse_eq_ok_iff.2 ⟨hsize, hr, hh⟩
  have hparse' := parse_eq_ok_iff.2 ⟨hsize, hr', hh'⟩
  rw [hparse] at hparse'
  exact Except.ok.inj hparse'

/-- Loading fails if the file is too short for a header, and only then. -/
theorem load_eq_error_iff {bytes : Array UInt8} {fault : Fault} :
    Machine.load bytes = .error fault ↔ bytes.size < 34 ∧ fault = .truncated .header 34 bytes.size := by
  by_cases hsize : bytes.size < headerSize
  · have hload : Machine.load bytes = .error (.truncated .header headerSize bytes.size) := by
      rw [Machine.load, Memory.ofStory, if_pos hsize, error_bind]
    rw [hload, Except.error.injEq, eq_comm]
    exact ⟨fun hfault => ⟨hsize, hfault⟩, fun hfault => hfault.2⟩
  · obtain ⟨machine, hload⟩ := Machine.exists_load (Nat.not_lt.1 hsize)
    rw [hload]
    exact ⟨nofun, fun hfault => absurd hfault.1 hsize⟩

/-- How the header of a story and the bytes of its image determine each other. -/
structure RoundTrip (image : Memory) : Prop where
  /-- A header whose fields the image holds is the one that is loaded. -/
  loaded : 34 ≤ image.size → ∀ h : Header, h.Representable → h.HeldBy image →
    ∃ machine, Machine.load image.bytes = .ok machine ∧ machine.header = h ∧
      machine.memory.staticBase = h.staticMemory.toNat
  /-- The image can be given any header. -/
  held : 34 ≤ image.size → ∀ h : Header, h.Representable → h.HeldBy (h.writeTo image)
  /-- Writing the loaded header to whatever image gives the first thirty bytes again. -/
  written : ∀ machine, Machine.load image.bytes = .ok machine → machine.header.Representable ∧
    ∀ blank : Memory, 30 ≤ blank.size → ∀ k, k < 30 →
      (machine.header.writeTo blank).bytes[k]? = image.bytes[k]?
  /-- No other bytes make a difference. -/
  determined : ∀ (other : Memory) machine machine', Machine.load image.bytes = .ok machine →
    Machine.load other.bytes = .ok machine' → (∀ k, k < 30 → other.bytes[k]? = image.bytes[k]?) →
    machine'.header = machine.header ∧ machine'.memory.staticBase = machine.memory.staticBase
  failed_iff : ∀ fault, Machine.load image.bytes = .error fault ↔
    image.size < 34 ∧ fault = .truncated .header 34 image.size

/-- **Reading and writing a header are inverse.**  An image of 34 bytes or more is loaded with the header whose fields it
holds; writing these gives its first thirty bytes again, and no other bytes have a part in the header or in the base of
static memory.  A shorter image is not loaded. -/
theorem header_round_trip (image : Memory) : RoundTrip image := by
  refine ⟨fun hsize h hr hh => ?_, fun hsize h hr => heldBy_writeTo hr (by omega), fun machine hload => ?_,
    fun other machine machine' hload hload' hagree => ?_, fun fault => load_eq_error_iff⟩
  · obtain ⟨machine, hload⟩ : ∃ machine, Machine.load image.bytes = .ok machine := Machine.exists_load hsize
    obtain ⟨-, hr', hh', hbase⟩ := heldBy_of_load hload
    obtain rfl := hh'.unique hh hr' hr hsize
    exact ⟨machine, hload, rfl, hbase⟩
  · obtain ⟨-, hr, hh, -⟩ := heldBy_of_load hload
    exact ⟨hr, fun blank hsize k hk => hh.getElem?_eq (heldBy_writeTo hr hsize) hr hk⟩
  · obtain ⟨-, hr, hh, hbase⟩ := heldBy_of_load hload
    obtain ⟨hsize', hr', hh', hbase'⟩ := heldBy_of_load hload'
    have heq : machine'.header = machine.header := hh'.unique (hh.congr hr hagree) hr' hr hsize'
    rw [hbase, hbase', heq]
    exact ⟨rfl, rfl⟩

end Header

end ZMachine
