import ZMachine.Proofs.Report

/-!
# Reading code byte by byte

The bytes of an instruction are read one after the other, each at the address after the last.  A computation that reads
in this way depends on nothing but the bytes it reads, and an image that ends too early stops it at the first byte that is
missing.

* `Memory.Holds`: given bytes stand in an image from an address on;
* `Consumes`: a computation has read given bytes of an image and yielded a value;
* `Consumes.bind`: what two such computations have read one after the other;
* `Consumes.truncate`: the fault on an image that ends among the bytes.
-/

namespace ZMachine

/-! ### Parts of an image -/

namespace Memory

variable {m m' : Memory} {address : Nat} {byte : UInt8} {bytes more : List UInt8}

/-- The bytes from one address up to another. -/
def slice (m : Memory) (start stop : Nat) : List UInt8 :=
  (m.bytes.extract start stop).toList

/-- The image cut off at an address. -/
def truncate (m : Memory) (size : Nat) : Memory :=
  { m with bytes := m.bytes.extract 0 size }

/-- The given bytes stand in the image from an address on. -/
def Holds (m : Memory) (address : Nat) (bytes : List UInt8) : Prop :=
  ∀ k, k < bytes.length → m.bytes[address + k]? = bytes[k]?

instance (m : Memory) (address : Nat) (bytes : List UInt8) : Decidable (m.Holds address bytes) :=
  inferInstanceAs (Decidable (∀ k, k < bytes.length → m.bytes[address + k]? = bytes[k]?))

theorem holds_nil (m : Memory) (address : Nat) : m.Holds address [] := nofun

theorem holds_singleton : m.Holds address [byte] ↔ m.bytes[address]? = some byte := by
  constructor
  · intro h
    exact h 0 Nat.one_pos
  · intro h k hk
    obtain rfl : k = 0 := by simpa using hk
    exact h

theorem holds_append :
    m.Holds address (bytes ++ more) ↔ m.Holds address bytes ∧ m.Holds (address + bytes.length) more := by
  constructor
  · intro h
    refine ⟨fun k hk => ?_, fun k hk => ?_⟩
    · rw [h k (by rw [List.length_append]; omega), List.getElem?_append_left hk]
    · have := h (bytes.length + k) (by rw [List.length_append]; omega)
      rw [List.getElem?_append_right (Nat.le_add_right _ _), Nat.add_sub_cancel_left, ← Nat.add_assoc] at this
      exact this
  · rintro ⟨h, h'⟩ k hk
    by_cases hlt : k < bytes.length
    · rw [h k hlt, List.getElem?_append_left hlt]
    · rw [List.length_append] at hk
      have := h' (k - bytes.length) (by omega)
      rw [show address + bytes.length + (k - bytes.length) = address + k by omega] at this
      rw [this, List.getElem?_append_right (Nat.not_lt.1 hlt)]

/-- Bytes that stand in an image end where it ends or before. -/
theorem Holds.le_size (h : m.Holds address bytes) (hne : bytes ≠ []) : address + bytes.length ≤ m.size := by
  have hpos : 0 < bytes.length := List.length_pos_iff.2 hne
  have hlast := h (bytes.length - 1) (by omega)
  rw [List.getElem?_eq_getElem (by omega)] at hlast
  have := (Array.getElem?_eq_some_iff.1 hlast).1
  unfold size
  omega

theorem Holds.slice_eq (h : m.Holds address bytes) : m.slice address (address + bytes.length) = bytes := by
  apply List.ext_getElem?
  intro k
  unfold slice
  rw [Array.getElem?_toList, Array.getElem?_extract]
  by_cases hk : k < bytes.length
  · have hsome := h k hk
    rw [List.getElem?_eq_getElem hk] at hsome
    have hlt := (Array.getElem?_eq_some_iff.1 hsome).1
    rw [if_pos (by omega), h k hk]
  · rw [if_neg (by omega), List.getElem?_eq_none (Nat.not_lt.1 hk)]

/-- An image that agrees with another where given bytes stand holds them too. -/
theorem Holds.congr (h : m.Holds address bytes)
    (hagree : ∀ k, address ≤ k → k < address + bytes.length → m'.bytes[k]? = m.bytes[k]?) : m'.Holds address bytes := by
  intro k hk
  rw [hagree (address + k) (Nat.le_add_right _ _) (by omega)]
  exact h k hk

theorem size_truncate (m : Memory) {size : Nat} (h : size ≤ m.size) : (m.truncate size).size = size := by
  have : size ≤ m.bytes.size := h
  simp [truncate, Memory.size, this]

theorem getElem?_truncate (m : Memory) {size k : Nat} (h : k < size) : (m.truncate size).bytes[k]? = m.bytes[k]? := by
  unfold truncate
  rw [Array.getElem?_extract]
  simp only [Nat.zero_add]
  by_cases hk : k < m.bytes.size
  · rw [if_pos (by omega)]
  · rw [if_neg (by omega), Array.getElem?_eq_none (Nat.not_lt.1 hk)]

theorem codeByte_eq_ok_iff {part : Part} : m.codeByte part address = .ok byte ↔ m.bytes[address]? = some byte := by
  unfold codeByte
  cases m.bytes[address]? <;> simp

/-- A byte beyond the end is missing. -/
theorem codeByte_of_size_le (part : Part) (h : m.size ≤ address) :
    m.codeByte part address = .error (.truncated part (address + 1) m.size) := by
  unfold codeByte
  rw [Array.getElem?_eq_none h]

end Memory

/-! ### Computations that read -/

/-- On an image, a computation has read the given bytes from an address on, and has yielded a value.  It yields the same on
every image that holds these bytes, and an image that ends among them is reported as cut off, with the first byte that is
missing. -/
structure Consumes {α : Type} (x : Memory → Except Fault α) (m : Memory) (address : Nat) (bytes : List UInt8) (a : α) :
    Prop where
  holds : m.Holds address bytes
  whole : ∀ {m' : Memory}, m'.Holds address bytes → x m' = .ok a
  cut : ∀ {m' : Memory}, address ≤ m'.size → m'.size < address + bytes.length →
    (∀ k, address + k < m'.size → m'.bytes[address + k]? = bytes[k]?) →
    ∃ part, x m' = .error (.truncated part (m'.size + 1) m'.size)

namespace Consumes

variable {α β : Type} {x : Memory → Except Fault α} {m : Memory} {address : Nat} {bytes more : List UInt8} {a : α} {b : β}

/-- A computation that does not look at the image reads nothing. -/
theorem pure (m : Memory) (address : Nat) (a : α) : Consumes (fun _ => .ok a) m address [] a where
  holds := m.holds_nil address
  whole _ := rfl
  cut h h' := absurd h' (by simpa using h)

theorem codeByte {part : Part} {byte : UInt8} (h : m.codeByte part address = .ok byte) :
    Consumes (fun m => m.codeByte part address) m address [byte] byte where
  holds := Memory.holds_singleton.2 (Memory.codeByte_eq_ok_iff.1 h)
  whole h := Memory.codeByte_eq_ok_iff.2 (Memory.holds_singleton.1 h)
  cut {m'} h h' _ := by
    obtain rfl : address = m'.size := by
      rw [List.length_singleton] at h'
      omega
    exact ⟨part, Memory.codeByte_of_size_le part (Nat.le_refl _)⟩

/-- Two computations, one after the other, read the bytes of the first and then those of the second. -/
theorem bind {f : α → Memory → Except Fault β} (hx : Consumes x m address bytes a)
    (hf : Consumes (f a) m (address + bytes.length) more b) :
    Consumes (fun m => x m >>= fun a => f a m) m address (bytes ++ more) b where
  holds := Memory.holds_append.2 ⟨hx.holds, hf.holds⟩
  whole h := by
    obtain ⟨h₁, h₂⟩ := Memory.holds_append.1 h
    rw [hx.whole h₁, ok_bind]
    exact hf.whole h₂
  cut {m'} h h' hagree := by
    rw [List.length_append] at h'
    by_cases hlt : m'.size < address + bytes.length
    · -- the image ends among the bytes of the first
      obtain ⟨part, hpart⟩ := hx.cut h hlt fun k hk => by
        rw [hagree k hk, List.getElem?_append_left (by omega)]
      exact ⟨part, by rw [hpart, error_bind]⟩
    · -- the first has all its bytes, and the image ends among those of the second
      have hfirst : m'.Holds address bytes := fun k hk => by
        rw [hagree k (by omega), List.getElem?_append_left hk]
      obtain ⟨part, hpart⟩ := hf.cut (Nat.not_lt.1 hlt) (by omega) fun k hk => by
        have := hagree (bytes.length + k) (by omega)
        rw [List.getElem?_append_right (Nat.le_add_right _ _), Nat.add_sub_cancel_left, ← Nat.add_assoc] at this
        exact this
      exact ⟨part, by rw [hx.whole hfirst, ok_bind, hpart]⟩

theorem map (f : α → β) (hx : Consumes x m address bytes a) :
    Consumes (fun m => x m >>= fun a => .ok (f a)) m address bytes (f a) := by
  have := hx.bind (f := fun a _ => .ok (f a)) (pure m (address + bytes.length) (f a))
  rw [List.append_nil] at this
  exact this

/-- The image cut off anywhere among the bytes is reported with the first byte that is missing. -/
theorem truncate {size : Nat} (hx : Consumes x m address bytes a) (hle : address ≤ size)
    (hlt : size < address + bytes.length) : ∃ part, x (m.truncate size) = .error (.truncated part (size + 1) size) := by
  have hne : bytes ≠ [] := by
    rintro rfl
    simp only [List.length_nil, Nat.add_zero] at hlt
    omega
  have hend := hx.holds.le_size hne
  have hsize : (m.truncate size).size = size := m.size_truncate (by omega)
  have hagree : ∀ k, address + k < (m.truncate size).size → (m.truncate size).bytes[address + k]? = bytes[k]? := by
    intro k hk
    rw [hsize] at hk
    rw [m.getElem?_truncate hk]
    exact hx.holds k (by omega)
  obtain ⟨part, hpart⟩ := hx.cut (by omega) (by omega) hagree
  exact ⟨part, by rw [hpart, hsize]⟩

end Consumes

end ZMachine
