/-!
# Words

A word is sixteen bits, kept in memory as two bytes with the high one first.  Arithmetic reads it as a number from -32768
to 32767.

* `Word.ofBytes`, `Word.high`, `Word.low`: the two bytes of a word; `ofBytes_high_low`, `high_ofBytes` and `low_ofBytes`
  say that they determine it and are determined by it;
* `Word.signed`: the signed reading.
-/

namespace ZMachine.Word

/-- The word whose high byte is `hi` and whose low byte is `lo`. -/
def ofBytes (hi lo : UInt8) : UInt16 :=
  UInt16.ofNat (256 * hi.toNat + lo.toNat)

/-- The byte that stands first in memory. -/
def high (w : UInt16) : UInt8 :=
  UInt8.ofNat (w.toNat / 256)

/-- The byte that stands second in memory. -/
def low (w : UInt16) : UInt8 :=
  UInt8.ofNat w.toNat

/-- The word read as a signed number. -/
def signed (w : UInt16) : Int :=
  w.toInt16.toInt

/-! ### Bytes and words determine each other -/

theorem toNat_ofBytes (hi lo : UInt8) : (ofBytes hi lo).toNat = 256 * hi.toNat + lo.toNat := by
  have h1 := hi.toNat_lt
  have h2 := lo.toNat_lt
  simp only [ofBytes, UInt16.toNat_ofNat']
  omega

theorem toNat_high (w : UInt16) : (high w).toNat = w.toNat / 256 := by
  have h := w.toNat_lt
  simp only [high, UInt8.toNat_ofNat']
  omega

theorem toNat_low (w : UInt16) : (low w).toNat = w.toNat % 256 := by
  simp only [low, UInt8.toNat_ofNat']

@[simp]
theorem ofBytes_high_low (w : UInt16) : ofBytes (high w) (low w) = w := by
  apply UInt16.toNat_inj.1
  rw [toNat_ofBytes, toNat_high, toNat_low]
  omega

@[simp]
theorem high_ofBytes (hi lo : UInt8) : high (ofBytes hi lo) = hi := by
  apply UInt8.toNat_inj.1
  have h := lo.toNat_lt
  rw [toNat_high, toNat_ofBytes]
  omega

@[simp]
theorem low_ofBytes (hi lo : UInt8) : low (ofBytes hi lo) = lo := by
  apply UInt8.toNat_inj.1
  have h := lo.toNat_lt
  rw [toNat_low, toNat_ofBytes]
  omega

end ZMachine.Word
