import ZMachine.Proofs.Memory

/-!
# Faults of writes

A write is refused for the first of its bytes, in the order of their addresses, that cannot be written.  A byte outside the
image is refused for that before the base of static memory is looked at, so a write of one byte puts the end of the image
first.  So does the write of a word, but in one place: a word at the last byte of an image that ends in static memory is
refused for its first byte, which is static, and not for its second, which is not there.

* `Memory.Refuses`, `Memory.writeByte_eq_error_iff`, `Memory.writeWord_eq_error_iff`: which byte a write is refused for;
* `Memory.LimitsInOrder`: a write that puts the end of the image first;
* `Memory.limits_in_order_but_at_end`: where writes do so.
-/

namespace ZMachine.Memory

variable {m : Memory} {address : Nat} {byte : UInt8} {word : UInt16} {fault : Fault}

/-! ### The byte that a write is refused for -/

/-- Why the byte at an address cannot be written. -/
inductive Refuses (m : Memory) (address : Nat) : Fault → Prop
  | outside (h : m.size ≤ address) : Refuses m address (.outOfBounds address m.size)
  | static (h : address < m.size) (hbase : m.staticBase ≤ address) : Refuses m address (.readOnly address m.staticBase)

theorem checkWritable_eq_error_iff : m.checkWritable address = .error fault ↔ m.Refuses address fault := by
  unfold checkWritable
  constructor
  · intro h
    split at h
    · next hsize =>
      cases h
      exact .outside hsize
    · next hsize =>
      split at h
      · next hbase =>
        cases h
        exact .static (Nat.not_le.1 hsize) hbase
      · cases h
  · intro h
    cases h with
    | outside hsize => rw [if_pos hsize]
    | static hsize hbase => rw [if_neg (Nat.not_le.2 hsize), if_pos hbase]

theorem writeByte_eq_error_iff : m.writeByte address byte = .error fault ↔ m.Refuses address fault := by
  unfold writeByte
  rw [bind_eq_error_iff, checkWritable_eq_error_iff]
  constructor
  · rintro (h | ⟨_, -, h⟩)
    · exact h
    · cases h
  · exact .inl

/-- A word is refused for its second byte only if its first one can be written. -/
theorem writeWord_eq_error_iff :
    m.writeWord address word = .error fault ↔
      m.Refuses address fault ∨ (address < m.size ∧ address < m.staticBase) ∧ m.Refuses (address + 1) fault := by
  unfold writeWord checkWritableWord
  simp only [bind_eq_error_iff, checkWritable_eq_error_iff]
  constructor
  · rintro ((h | ⟨_, hfirst, h⟩) | ⟨_, -, h⟩)
    · exact .inl h
    · exact .inr ⟨checkWritable_eq_ok_iff.1 hfirst, h⟩
    · cases h
  · rintro (h | ⟨hfirst, h⟩)
    · exact .inl (.inl h)
    · exact .inl (.inr ⟨(), checkWritable_eq_ok_iff.2 hfirst, h⟩)

/-! ### The end of the image first -/

/-- What a write comes to if the end of the image counts before the base of static memory: it is out of bounds if one of the
bytes it covers lies outside the image, otherwise it is a write to static memory if one of them lies there, and otherwise
it succeeds. -/
structure LimitsInOrder (m : Memory) (covered : List Nat) (result : Except Fault Memory) : Prop where
  outOfBounds_iff : (∃ k size, result = .error (.outOfBounds k size)) ↔ ∃ k ∈ covered, m.size ≤ k
  readOnly_iff : (∃ k base, result = .error (.readOnly k base)) ↔
    (∀ k ∈ covered, k < m.size) ∧ ∃ k ∈ covered, m.staticBase ≤ k
  succeeds_iff : result.isOk ↔ (∀ k ∈ covered, k < m.size) ∧ ∀ k ∈ covered, k < m.staticBase

section

variable {covered : List Nat} {result : Except Fault Memory} {k n : Nat}

theorem limitsInOrder_of_outside (hk : k ∈ covered) (hsize : m.size ≤ k) (h : result = .error (.outOfBounds n m.size)) :
    m.LimitsInOrder covered result := by
  have hnot : ¬∀ k ∈ covered, k < m.size := fun hall => Nat.not_lt.2 hsize (hall k hk)
  subst h
  refine ⟨⟨fun _ => ⟨k, hk, hsize⟩, fun _ => ⟨n, m.size, rfl⟩⟩, ⟨?_, ?_⟩, ⟨nofun, ?_⟩⟩
  · rintro ⟨_, _, ⟨⟩⟩
  · exact fun hall => absurd hall.1 hnot
  · exact fun hall => absurd hall.1 hnot

theorem limitsInOrder_of_static (hinside : ∀ k ∈ covered, k < m.size) (hk : k ∈ covered) (hbase : m.staticBase ≤ k)
    (h : result = .error (.readOnly n m.staticBase)) : m.LimitsInOrder covered result := by
  subst h
  refine ⟨⟨?_, ?_⟩, ⟨fun _ => ⟨hinside, k, hk, hbase⟩, fun _ => ⟨n, m.staticBase, rfl⟩⟩, ⟨nofun, ?_⟩⟩
  · rintro ⟨_, _, ⟨⟩⟩
  · rintro ⟨k', hk', hsize⟩
    exact absurd (hinside k' hk') (Nat.not_lt.2 hsize)
  · exact fun hall => absurd (hall.2 k hk) (Nat.not_lt.2 hbase)

theorem limitsInOrder_of_ok {m' : Memory} (hinside : ∀ k ∈ covered, k < m.size) (hbelow : ∀ k ∈ covered, k < m.staticBase)
    (h : result = .ok m') : m.LimitsInOrder covered result := by
  subst h
  refine ⟨⟨?_, ?_⟩, ⟨?_, ?_⟩, ⟨fun _ => ⟨hinside, hbelow⟩, fun _ => rfl⟩⟩
  · rintro ⟨_, _, ⟨⟩⟩
  · rintro ⟨k, hk, hsize⟩
    exact absurd (hinside k hk) (Nat.not_lt.2 hsize)
  · rintro ⟨_, _, ⟨⟩⟩
  · rintro ⟨-, k, hk, hbase⟩
    exact absurd (hbelow k hk) (Nat.not_lt.2 hbase)

end

theorem limitsInOrder_writeByte (m : Memory) (address : Nat) (byte : UInt8) :
    m.LimitsInOrder [address] (m.writeByte address byte) := by
  have hmem : address ∈ [address] := List.mem_singleton.2 rfl
  by_cases hsize : m.size ≤ address
  · exact limitsInOrder_of_outside hmem hsize (writeByte_eq_error_iff.2 (.outside hsize))
  · rw [Nat.not_le] at hsize
    have hinside : ∀ k ∈ [address], k < m.size := by simpa using hsize
    by_cases hbase : m.staticBase ≤ address
    · exact limitsInOrder_of_static hinside hmem hbase (writeByte_eq_error_iff.2 (.static hsize hbase))
    · rw [Nat.not_le] at hbase
      exact limitsInOrder_of_ok hinside (by simpa using hbase) (writeByte_eq_ok_iff.2 ⟨hsize, hbase, rfl⟩)

/-- Whether an address is that of the last byte of an image that ends in static memory. -/
def IsStaticEnd (m : Memory) (address : Nat) : Prop :=
  address + 1 = m.size ∧ m.staticBase ≤ address

theorem writeWord_of_isStaticEnd (h : m.IsStaticEnd address) (word : UInt16) :
    m.writeWord address word = .error (.readOnly address m.staticBase) := by
  obtain ⟨hend, hbase⟩ := h
  exact writeWord_eq_error_iff.2 (.inl (.static (by omega) hbase))

theorem limitsInOrder_writeWord (h : ¬m.IsStaticEnd address) (word : UInt16) :
    m.LimitsInOrder [address, address + 1] (m.writeWord address word) := by
  have hfirst : address ∈ [address, address + 1] := List.mem_cons_self
  have hsecond : address + 1 ∈ [address, address + 1] := List.mem_cons_of_mem _ (List.mem_singleton.2 rfl)
  by_cases hsize : m.size ≤ address
  · exact limitsInOrder_of_outside hfirst hsize (writeWord_eq_error_iff.2 (.inl (.outside hsize)))
  · by_cases hsize' : m.size ≤ address + 1
    · -- only the second byte is outside, and the first is not static since the image does not end there
      have hbase : address < m.staticBase := by
        unfold IsStaticEnd at h
        omega
      have hwritable : address < m.size ∧ address < m.staticBase := ⟨by omega, hbase⟩
      exact limitsInOrder_of_outside hsecond hsize' (writeWord_eq_error_iff.2 (.inr ⟨hwritable, .outside hsize'⟩))
    · rw [Nat.not_le] at hsize hsize'
      have hinside : ∀ k ∈ [address, address + 1], k < m.size := by simp [hsize, hsize']
      by_cases hbase : m.staticBase ≤ address
      · exact limitsInOrder_of_static hinside hfirst hbase (writeWord_eq_error_iff.2 (.inl (.static hsize hbase)))
      · by_cases hbase' : m.staticBase ≤ address + 1
        · have hwritable : address < m.size ∧ address < m.staticBase := ⟨hsize, Nat.not_le.1 hbase⟩
          have hfault : m.writeWord address word = .error (.readOnly (address + 1) m.staticBase) :=
            writeWord_eq_error_iff.2 (.inr ⟨hwritable, .static hsize' hbase'⟩)
          exact limitsInOrder_of_static hinside hsecond hbase' hfault
        · rw [Nat.not_le] at hbase hbase'
          have hbelow : ∀ k ∈ [address, address + 1], k < m.staticBase := by simp [hbase, hbase']
          exact limitsInOrder_of_ok hinside hbelow (writeWord_eq_ok_iff.2 ⟨hsize', hbase', rfl⟩)

/-- What is known of the order in which writes at an address meet the two limits. -/
structure LimitsAt (m : Memory) (address : Nat) : Prop where
  byte : ∀ byte, m.LimitsInOrder [address] (m.writeByte address byte)
  word_iff : ∀ word, m.LimitsInOrder [address, address + 1] (m.writeWord address word) ↔ ¬m.IsStaticEnd address
  /-- In the one place where the order is the other one, the write of a word is a write to static memory. -/
  word_at_end : ∀ word, m.IsStaticEnd address → m.writeWord address word = .error (.readOnly address m.staticBase)

/-- **Writes put the end of the image before the base of static memory, but for words at the end of an image that is static
there.**  A write of a byte always does.  A write of a word does exactly if it is not at the last byte of an image that
ends in static memory; there it is refused as a write to static memory, although its second byte is outside the image. -/
theorem limits_in_order_but_at_end (m : Memory) (address : Nat) : m.LimitsAt address where
  byte byte := m.limitsInOrder_writeByte address byte
  word_iff word := by
    refine ⟨fun h hend => ?_, fun hend => limitsInOrder_writeWord hend word⟩
    have houtside : ∃ k ∈ [address, address + 1], m.size ≤ k := ⟨address + 1, by simp, Nat.le_of_eq hend.1.symm⟩
    obtain ⟨k, size, hfault⟩ := h.outOfBounds_iff.2 houtside
    rw [writeWord_of_isStaticEnd hend] at hfault
    cases hfault
  word_at_end word hend := writeWord_of_isStaticEnd hend word

/-- A word at the last of four bytes, of which two are static: the second byte of the word is outside the image, but the
write is refused as one to static memory. -/
theorem word_at_end_not_in_order :
    let m : Memory := ⟨#[0, 0, 0, 0], 2⟩
    m.size ≤ 3 + 1 ∧ m.writeWord 3 0xBEEF = .error (.readOnly 3 2) ∧
      ¬m.LimitsInOrder [3, 4] (m.writeWord 3 0xBEEF) := by
  refine ⟨by decide, rfl, fun h => ?_⟩
  obtain ⟨k, size, hfault⟩ := h.outOfBounds_iff.2 ⟨4, by simp, by decide⟩
  cases hfault

end ZMachine.Memory
