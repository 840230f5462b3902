import Mathlib.Algebra.BigOperators.Intervals
import ZMachine.Proofs.HeaderFields

/-!
# The checksum of a story

The checksum adds up the bytes after the header area, from address 64 up to the length that the header gives or to the end
of the image, whichever comes first, and keeps the sum modulo 65536.  The field of the header that holds it lies before
address 64 and apart from the fields that give the length.  So the checksum of an image can be written into its header,
and it is still the checksum of the image that results.

* `Memory.toNat_checksum`: the checksum as a sum over addresses;
* `Memory.checksum_congr`: the bytes that it depends on;
* `Header.parse_setWord_checksum`: what another word in the field of the checksum does to the header;
* `Memory.checksum_verifies_itself`: the checksum is right in the header it is written to.
-/

namespace ZMachine

namespace Memory

variable {m m' : Memory} {fileLength : Nat}

/-! ### The sum over addresses -/

/-- Adding up bytes in words keeps the sum modulo 65536. -/
theorem toNat_foldl_add (bytes : List UInt8) (sum : UInt16) :
    (bytes.foldl (fun sum byte => sum + byte.toUInt16) sum).toNat =
      (sum.toNat + (bytes.map UInt8.toNat).sum) % 65536 := by
  induction bytes generalizing sum with
  | nil =>
    have hlt := sum.toNat_lt
    simp only [List.foldl_nil, List.map_nil, List.sum_nil]
    omega
  | cons byte bytes ih =>
    have hstep : (sum + byte.toUInt16).toNat = (sum.toNat + byte.toNat) % 65536 := by
      rw [UInt16.toNat_add, UInt8.toNat_toUInt16]
    rw [List.foldl_cons, ih, hstep, List.map_cons, List.sum_cons]
    omega

/-- A part of the image, address by address. -/
theorem slice_eq_map (m : Memory) (start : Nat) {stop : Nat} (h : stop ≤ m.size) :
    m.slice start stop = (List.range' start (stop - start)).map fun k => m.bytes.getD k 0 := by
  have hsize : stop ≤ m.bytes.size := h
  apply List.ext_getElem?
  intro k
  unfold slice
  rw [Array.getElem?_toList, Array.getElem?_extract, List.getElem?_map]
  by_cases hk : k < stop - start
  · rw [if_pos (by omega), List.getElem?_range' hk, Option.map_some, Nat.one_mul, Array.getElem?_eq_getElem (by omega),
      Array.getD_eq_getD_getElem?, Array.getElem?_eq_getElem (by omega), Option.getD_some]
  · rw [if_neg (by omega), List.getElem?_eq_none (by rw [List.length_range']; omega), Option.map_none]

/-- **The checksum is a sum over addresses**, modulo 65536. -/
theorem toNat_checksum (m : Memory) (fileLength : Nat) :
    (m.checksum fileLength).toNat =
      (∑ k ∈ Finset.Ico checksumStart (min fileLength m.size), (m.bytes.getD k 0).toNat) % 65536 := by
  have hslice : m.checksum fileLength =
      (m.slice checksumStart (min fileLength m.size)).foldl (fun sum byte => sum + byte.toUInt16) 0 := by
    rw [checksum, slice, Array.foldl_toList]
  rw [hslice, toNat_foldl_add, slice_eq_map m _ (Nat.min_le_right _ _), List.map_map, UInt16.toNat_zero, Nat.zero_add]
  rfl

/-- A length within the header area leaves nothing to add up. -/
theorem checksum_of_le (h : min fileLength m.size ≤ checksumStart) : m.checksum fileLength = 0 := by
  apply UInt16.toNat_inj.1
  rw [toNat_checksum, Finset.Ico_eq_empty (Nat.not_lt.2 h), Finset.sum_empty]
  rfl

/-- **The checksum depends on no byte** outside the range that it covers. -/
theorem checksum_congr (hend : min fileLength m'.size = min fileLength m.size)
    (hagree : ∀ k, checksumStart ≤ k → k < min fileLength m.size → m'.bytes[k]? = m.bytes[k]?) :
    m'.checksum fileLength = m.checksum fileLength := by
  apply UInt16.toNat_inj.1
  rw [toNat_checksum, toNat_checksum, hend]
  congr 1
  apply Finset.sum_congr rfl
  intro k hk
  obtain ⟨hlo, hhi⟩ := Finset.mem_Ico.1 hk
  rw [Array.getD_eq_getD_getElem?, Array.getD_eq_getD_getElem?, hagree k hlo hhi]

/-- A word in the header area makes no difference to the checksum. -/
theorem checksum_setWord {address : Nat} (h : address + 2 ≤ checksumStart) (word : UInt16) :
    (m.setWord address word).checksum fileLength = m.checksum fileLength := by
  apply checksum_congr
  · rw [size_setWord]
  · intro k hlo _
    rw [getElem?_setWord, if_neg (by omega), if_neg (by omega)]

end Memory

/-! ### The field of the checksum -/

namespace Header

variable {h : Header} {m : Memory}

/-- The bytes of all fields before the checksum. -/
def front (h : Header) : List UInt8 :=
  (h.layout.take 13).flatMap Prod.snd

theorem encode_eq_front_append (h : Header) : h.encode = h.front ++ [Word.high h.checksum, Word.low h.checksum] := by
  simp [encode, front, layout]

theorem length_front (hr : h.Representable) : h.front.length = 28 := by
  have hlength := length_encode hr
  rw [encode_eq_front_append, List.length_append] at hlength
  exact Nat.add_right_cancel hlength

/-- **Another word in the field of the checksum** changes this field of the header and no other. -/
theorem parse_setWord_checksum (hparse : parse m = .ok h) (word : UInt16) :
    parse (m.setWord 28 word) = .ok { h with checksum := word } := by
  obtain ⟨hsize, hr, hheld⟩ := parse_eq_ok_iff.1 hparse
  have hsize' : 34 ≤ m.size := hsize
  have hr' : ({ h with checksum := word } : Header).Representable := ⟨hr.length, hr.chars⟩
  have hfront : ({ h with checksum := word } : Header).front = h.front := rfl
  rw [heldBy_iff hr, encode_eq_front_append, Memory.holds_append] at hheld
  rw [parse_eq_ok_iff, Memory.size_setWord, heldBy_iff hr', encode_eq_front_append, Memory.holds_append, hfront,
    length_front hr]
  refine ⟨hsize, hr', hheld.1.congr ?_, ?_⟩
  · intro k _ hk
    rw [length_front hr] at hk
    rw [Memory.getElem?_setWord, if_neg (by omega), if_neg (by omega)]
  · -- writing a word is writing its two bytes, which then stand there
    have hbytes : 28 + [Word.high word, Word.low word].length ≤ m.size := by
      rw [List.length_cons, List.length_singleton]
      omega
    exact Memory.holds_setBytes hbytes

end Header

/-! ### A checksum in the header it verifies -/

namespace Memory

/-- The image with its own checksum in the header, up to the length that the header gives. -/
def stamped (m : Memory) (h : Header) : Memory :=
  m.setWord 28 (m.checksum h.fileSize)

/-- What the checksum of an image is, and where it can be kept. -/
structure VerifiedBySum (m : Memory) : Prop where
  /-- The checksum is the sum of the bytes from address 64 up to the given length or the end of the image. -/
  sum : ∀ fileLength, (m.checksum fileLength).toNat =
    (∑ k ∈ Finset.Ico 64 (min fileLength m.size), (m.bytes.getD k 0).toNat) % 65536
  /-- There may be no such bytes. -/
  zero : ∀ fileLength, min fileLength m.size ≤ 64 → m.checksum fileLength = 0
  /-- No other bytes make a difference, nor how far the image goes on. -/
  determined : ∀ (m' : Memory) (fileLength : Nat), min fileLength m'.size = min fileLength m.size →
    (∀ k, 64 ≤ k → k < min fileLength m.size → m'.bytes[k]? = m.bytes[k]?) →
    m'.checksum fileLength = m.checksum fileLength
  /-- Written into the header, the checksum changes no other field, and it is that of the image it is then part of. -/
  stored : 34 ≤ m.size → ∃ h, Header.parse m = .ok h ∧ ∃ h', Header.parse (m.stamped h) = .ok h' ∧
    h' = { h with checksum := m.checksum h.fileSize } ∧ h'.version = h.version ∧ h'.fileSize = h.fileSize ∧
    h'.checksum = (m.stamped h).checksum h'.fileSize

/-- **The checksum verifies the image whose header holds it.**  It is the sum, modulo 65536, of the bytes from address 64 up
to the length of the file or the end of the image, and depends on no other byte.  When it is written into the header of an
image of 34 bytes or more, all other fields stay, the length of the file among them, and the checksum of the new image is
the one in its header. -/
theorem checksum_verifies_itself (m : Memory) : m.VerifiedBySum where
  sum := m.toNat_checksum
  zero _ hle := checksum_of_le hle
  determined _ _ hend hagree := checksum_congr hend hagree
  stored hsize := by
    obtain ⟨h, hparse⟩ := Machine.exists_parse hsize
    have hlength : ({ h with checksum := m.checksum h.fileSize } : Header).fileSize = h.fileSize := rfl
    refine ⟨h, hparse, _, Header.parse_setWord_checksum hparse _, rfl, rfl, hlength, ?_⟩
    -- the field lies in the header area, so the new image has the same checksum
    rw [hlength, stamped, checksum_setWord (by decide)]

/-- A file of 66 bytes of version 3, with a wrong checksum in its header.  The last two of its bytes count. -/
example :
    let m : Memory := ⟨Array.replicate 26 3 ++ #[0, 33] ++ Array.replicate 36 3 ++ #[0xFF, 0x02], 0⟩
    ∃ h, Header.parse m = .ok h ∧ h.fileSize = 66 ∧ h.checksum = 0x0303 ∧ m.checksum 66 = 0x0101 ∧
      (Header.parse (m.stamped h)).map Header.checksum = .ok 0x0101 :=
  ⟨_, rfl, by decide, by decide, by decide, by decide⟩

end Memory

end ZMachine
