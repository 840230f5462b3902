import ZMachine.Proofs.Checked.Fetch

/-!
# The bytes of a row of operands

Operands of given kinds stand one after the other, each where the one before it ends.  The kinds that count are those before
the first omitted one, and four of them at most.  If the image has all the bytes of these, the operands are what the bytes
say; otherwise decoding stops at the first byte that is missing, and the fault names the kind of operand it belongs to.

* `OperandKind.present`, `OperandKind.extent`: the kinds that count, and the bytes that operands of such kinds take;
* `Memory.Shows`, `Memory.ShowsRow`: the operand that an image shows at an address, and a row of them;
* `Memory.HasRow`, `Memory.CutsOff`: an image has all bytes of a row, or ends in one of its operands;
* `Operand.readAll_of_hasRow`, `Operand.readAll_of_cutsOff`: what decoding comes to in the two cases;
* `Operand.decode_as_laid_out`: which of them it is, and that no other kind of the row makes a difference.
-/

namespace ZMachine

/-! ### The kinds of a row -/

namespace OperandKind

/-- The kinds that count: those before the first omitted one, four at most. -/
def present (kinds : List OperandKind) : List OperandKind :=
  (kinds.takeWhile (· ≠ .omitted)).take Operand.limit

/-- The number of bytes that operands of the given kinds take together. -/
def extent : List OperandKind → Nat
  | [] => 0
  | kind :: kinds => kind.size + extent kinds

/-- What a file is short of if it ends in an operand of a kind. -/
def part? : OperandKind → Option Part
  | .large => some .largeConstant
  | .small => some .smallConstant
  | .var => some .variableNumber
  | .omitted => none

variable {kind : OperandKind} {kinds : List OperandKind}

@[simp]
theorem extent_nil : extent [] = 0 := rfl

@[simp]
theorem extent_cons (kind : OperandKind) (kinds : List OperandKind) : extent (kind :: kinds) = kind.size + extent kinds :=
  rfl

theorem size_pos (h : kind ≠ .omitted) : 0 < kind.size := by
  cases kind with
  | omitted => exact absurd rfl h
  | large | small | var => decide

theorem exists_part? (h : kind ≠ .omitted) : ∃ part, kind.part? = some part := by
  cases kind with
  | omitted => exact absurd rfl h
  | large | small | var => exact ⟨_, rfl⟩

theorem ne_omitted_of_mem_present (h : kind ∈ present kinds) : kind ≠ .omitted := by
  have hall := List.all_eq_true.1 List.all_takeWhile kind (List.mem_of_mem_take h)
  simpa using hall

end OperandKind

namespace Memory

/-- What an image shows at an address as an operand: a word, a byte, or the variable that a byte is the number of. -/
def Shows (m : Memory) (address : Nat) : Operand → Prop
  | .large value => m.readWord address = .ok value
  | .small value => m.readByte address = .ok value
  | .var source => ∃ number, m.readByte address = .ok number ∧ source = .ofNumber number

/-- The image shows operands one after the other from an address on, each where the one before it ends. -/
def ShowsRow (m : Memory) (address : Nat) (operands : List Operand) : Prop :=
  ∀ before operand after, operands = before ++ operand :: after →
    m.Shows (address + OperandKind.extent (before.map Operand.kind)) operand

/-- The image has all bytes of a row that starts at an address.  A row of no operands has none. -/
def HasRow (m : Memory) (address : Nat) (kinds : List OperandKind) : Prop :=
  kinds = [] ∨ address + OperandKind.extent kinds ≤ m.size

instance (m : Memory) (address : Nat) (kinds : List OperandKind) : Decidable (m.HasRow address kinds) :=
  inferInstanceAs (Decidable (_ ∨ _))

/-- The first byte that is missing of a row that starts at an address falls in an operand with the given part. -/
def CutsOff (m : Memory) (address : Nat) (kinds : List OperandKind) (part : Part) : Prop :=
  ∃ before kind after, kinds = before ++ kind :: after ∧ kind.part? = some part ∧
    address + OperandKind.extent before ≤ max address m.size ∧
    max address m.size < address + OperandKind.extent before + kind.size

end Memory

namespace Operand

open OperandKind

variable {m : Memory} {address : Nat} {kind : OperandKind} {kinds : List OperandKind} {part : Part}

/-! ### One operand -/

theorem exists_codeByte (part : Part) (h : address < m.size) :
    ∃ byte, m.codeByte part address = .ok byte ∧ m.readByte address = .ok byte := by
  obtain ⟨byte, hbyte⟩ := Memory.exists_readByte h
  exact ⟨byte, Memory.codeByte_eq_ok_iff.2 (Memory.readByte_eq_ok_iff.1 hbyte), hbyte⟩

theorem read_of_le (hkind : kind ≠ .omitted) (h : address + kind.size ≤ m.size) :
    ∃ operand, read m address kind = .ok operand ∧ operand.kind = kind ∧ m.Shows address operand := by
  have hpos := size_pos hkind
  cases kind with
  | omitted => exact absurd rfl hkind
  | large =>
    have hsize : address + 2 ≤ m.size := h
    obtain ⟨hi, hhi, hhi'⟩ := exists_codeByte (m := m) .largeConstant (show address < m.size by omega)
    obtain ⟨lo, hlo, hlo'⟩ := exists_codeByte (m := m) .largeConstant (show address + 1 < m.size by omega)
    refine ⟨.large (Word.ofBytes hi lo), ?_, rfl, ?_⟩
    · exact bind_eq_ok_iff.2 ⟨hi, hhi, bind_eq_ok_iff.2 ⟨lo, hlo, rfl⟩⟩
    · exact bind_eq_ok_iff.2 ⟨hi, hhi', bind_eq_ok_iff.2 ⟨lo, hlo', rfl⟩⟩
  | small =>
    obtain ⟨byte, hbyte, hbyte'⟩ := exists_codeByte (m := m) .smallConstant (show address < m.size by omega)
    exact ⟨.small byte, bind_eq_ok_iff.2 ⟨byte, hbyte, rfl⟩, rfl, hbyte'⟩
  | var =>
    obtain ⟨number, hnumber, hnumber'⟩ := exists_codeByte (m := m) .variableNumber (show address < m.size by omega)
    exact ⟨.var (.ofNumber number), bind_eq_ok_iff.2 ⟨number, hnumber, rfl⟩, rfl, number, hnumber', rfl⟩

/-- An operand that is cut off is reported with its first missing byte. -/
theorem read_of_lt (hpart : kind.part? = some part) (h : m.size < address + kind.size) :
    read m address kind = .error (.truncated part (max address m.size + 1) m.size) := by
  by_cases hle : m.size ≤ address
  · rw [Nat.max_eq_left hle]
    cases kind with
    | omitted => cases hpart
    | large | small | var =>
      cases hpart
      rw [read, Memory.codeByte_of_size_le _ hle, error_bind]
  · -- some byte of it is there and another is not, so that it is a large constant
    rw [Nat.not_le] at hle
    cases kind with
    | omitted => cases hpart
    | small | var =>
      have hsize : m.size < address + 1 := h
      omega
    | large =>
      cases hpart
      have hsize : m.size < address + 2 := h
      have hlast : m.size = address + 1 := by omega
      obtain ⟨hi, hhi, -⟩ := exists_codeByte (m := m) .largeConstant hle
      rw [read, hhi, ok_bind, Memory.codeByte_of_size_le _ (Nat.le_of_eq hlast), error_bind, Nat.max_eq_right (by omega),
        hlast]

/-! ### A row of operands -/

theorem readAll_takeWhile (m : Memory) (address : Nat) (kinds : List OperandKind) :
    readAll m address (kinds.takeWhile (· ≠ .omitted)) = readAll m address kinds := by
  induction kinds generalizing address with
  | nil => rfl
  | cons kind kinds ih =>
    by_cases hkind : kind = .omitted
    · subst hkind
      rfl
    · rw [List.takeWhile_cons_of_pos (by simpa using hkind), readAll_cons hkind, readAll_cons hkind, ih]

/-- Only the kinds that count are read. -/
theorem decode_eq_readAll_present (m : Memory) (address : Nat) (kinds : List OperandKind) :
    decode m address kinds = readAll m address (present kinds) := by
  rw [decode, present, List.take_takeWhile, readAll_takeWhile]

/-- **A row that the image has in full** is read: the operands have the given kinds, and each stands where the one before it
ends. -/
theorem readAll_of_hasRow (hkinds : ∀ kind ∈ kinds, kind ≠ .omitted) (h : m.HasRow address kinds) :
    ∃ operands, readAll m address kinds = .ok (operands, address + extent kinds) ∧ operands.map Operand.kind = kinds ∧
      m.ShowsRow address operands := by
  induction kinds generalizing address with
  | nil =>
    refine ⟨[], rfl, rfl, ?_⟩
    intro before operand after heq
    cases before <;> cases heq
  | cons kind kinds ih =>
    have hkind : kind ≠ .omitted := hkinds kind List.mem_cons_self
    have hle : address + (kind.size + extent kinds) ≤ m.size := by simpa [Memory.HasRow] using h
    have hfirstRow : address + kind.size ≤ m.size := by omega
    have hrestRow : m.HasRow (address + kind.size) kinds := .inr (by omega)
    obtain ⟨first, hfirst, hfirstKind, hshows⟩ := read_of_le hkind hfirstRow
    obtain ⟨rest, hrest, hrestKinds, hrestShows⟩ := ih (List.forall_mem_cons.1 hkinds).2 hrestRow
    refine ⟨first :: rest, ?_, ?_, ?_⟩
    · rw [readAll_cons hkind, hfirst, ok_bind, hrest, ok_bind, extent_cons, Nat.add_assoc]
    · rw [List.map_cons, hfirstKind, hrestKinds]
    · intro before operand after heq
      cases before with
      | nil =>
        cases heq
        exact hshows
      | cons head before =>
        obtain ⟨rfl, htail⟩ := List.cons.inj heq
        have hoperand := hrestShows before operand after htail
        rw [List.map_cons, hfirstKind, extent_cons, ← Nat.add_assoc]
        exact hoperand

/-- **A row that is cut off** is reported with the first byte that is missing. -/
theorem readAll_of_cutsOff (hkinds : ∀ kind ∈ kinds, kind ≠ .omitted) (h : m.CutsOff address kinds part) :
    readAll m address kinds = .error (.truncated part (max address m.size + 1) m.size) := by
  obtain ⟨before, cut, after, rfl, hpart, hstart, hstop⟩ := h
  induction before generalizing address with
  | nil =>
    have hcut : cut ≠ .omitted := hkinds cut (by simp)
    rw [extent_nil, Nat.add_zero] at hstop
    rw [List.nil_append, readAll_cons hcut, read_of_lt hpart (by omega), error_bind]
  | cons kind before ih =>
    have hkind : kind ≠ .omitted := hkinds kind (by simp)
    have hpos := size_pos hkind
    rw [extent_cons] at hstart hstop
    -- an operand before the one that is cut off is there in full, so the image goes on beyond the address
    have hle : address + kind.size ≤ m.size := by omega
    obtain ⟨first, hfirst, -, -⟩ := read_of_le hkind hle
    have hmax : max (address + kind.size) m.size = max address m.size := by omega
    have hrestStart : address + kind.size + extent before ≤ max (address + kind.size) m.size := by omega
    have hrestStop : max (address + kind.size) m.size < address + kind.size + extent before + cut.size := by omega
    have hrest := ih (List.forall_mem_cons.1 hkinds).2 hrestStart hrestStop
    rw [List.cons_append, readAll_cons hkind, hfirst, ok_bind, hrest, error_bind, hmax]

/-- If the image does not have a row in full, its first missing byte falls in one of the operands. -/
theorem exists_cutsOff (hkinds : ∀ kind ∈ kinds, kind ≠ .omitted) (h : ¬m.HasRow address kinds) :
    ∃ part, m.CutsOff address kinds part := by
  induction kinds generalizing address with
  | nil => exact absurd (.inl rfl) h
  | cons kind kinds ih =>
    have hkind : kind ≠ .omitted := hkinds kind List.mem_cons_self
    have hlt : m.size < address + (kind.size + extent kinds) := by simpa [Memory.HasRow] using h
    by_cases hcut : m.size < address + kind.size
    · have hpos := size_pos hkind
      obtain ⟨part, hpart⟩ := exists_part? hkind
      refine ⟨part, [], kind, kinds, rfl, hpart, ?_, ?_⟩
      · rw [extent_nil]
        omega
      · rw [extent_nil]
        omega
    · -- the first operand is there in full, so some byte of the others is missing
      have hrest : ¬m.HasRow (address + kind.size) kinds := by
        rintro (rfl | hle)
        · rw [extent_nil] at hlt
          omega
        · omega
      obtain ⟨part, before, cut, after, rfl, hpart, hstart, hstop⟩ := ih (List.forall_mem_cons.1 hkinds).2 hrest
      refine ⟨part, kind :: before, cut, after, rfl, hpart, ?_, ?_⟩
      · rw [extent_cons]
        omega
      · rw [extent_cons]
        omega

/-- **Decoding has two outcomes**, and which one it is depends on whether the bytes are there. -/
theorem decode_cases (m : Memory) (address : Nat) (kinds : List OperandKind) :
    (m.HasRow address (present kinds) ∧ ∃ operands,
      decode m address kinds = .ok (operands, address + extent (present kinds)) ∧
        operands.map Operand.kind = present kinds ∧ m.ShowsRow address operands) ∨
    ¬m.HasRow address (present kinds) ∧ ∃ part, m.CutsOff address (present kinds) part ∧
      decode m address kinds = .error (.truncated part (max address m.size + 1) m.size) := by
  have hkinds : ∀ kind ∈ present kinds, kind ≠ .omitted := fun kind => ne_omitted_of_mem_present
  rw [decode_eq_readAll_present]
  by_cases hrow : m.HasRow address (present kinds)
  · exact .inl ⟨hrow, readAll_of_hasRow hkinds hrow⟩
  · obtain ⟨part, hpart⟩ := exists_cutsOff hkinds hrow
    exact .inr ⟨hrow, part, hpart, readAll_of_cutsOff hkinds hpart⟩

/-- Below the last sixteen addresses of 64 bits none of the checks that decoding makes fails. -/
theorem passes_decode (m : Memory) (kinds : List OperandKind) (h : address < 0xFFFFFFFFFFFFFFF0) :
    Checked.Passes (Checked.readAll m address [] (kinds.take limit)) (decode m address kinds) := by
  have hlength : (kinds.take limit).length ≤ 4 := List.length_take_le limit kinds
  have hroom : ([] : List Operand).length + (kinds.take limit).length ≤ limit := by
    rw [List.length_nil, Nat.zero_add]
    exact List.length_take_le limit kinds
  have hend : address + 2 * (kinds.take limit).length + 2 < 0x10000000000000000 := by omega
  have hpasses := Checked.passes_readAll (m := m) address [] hroom hend
  have hid : (decode m address kinds).map (fun r => ([] ++ r.1, r.2)) = decode m address kinds := by
    cases decode m address kinds <;> rfl
  rw [← hid]
  exact hpasses

/-- What decoding a row of operands comes to. -/
structure LaidOut (m : Memory) (address : Nat) (kinds : List OperandKind) : Prop where
  /-- It succeeds if no operand is there to be read, or the image has all bytes of those that are. -/
  succeeds_iff : (decode m address kinds).isOk ↔ present kinds = [] ∨ address + extent (present kinds) ≤ m.size
  /-- Then the operands have the kinds that count, each is what stands where the one before it ends, and the address after
  them is where the last one ends. -/
  decoded : ∀ operands next, decode m address kinds = .ok (operands, next) →
    operands.map Operand.kind = present kinds ∧ m.ShowsRow address operands ∧ next = address + extent (present kinds)
  /-- Otherwise the file is reported as cut off at its first missing byte, with the kind of operand this falls in. -/
  fault_iff : ∀ fault, decode m address kinds = .error fault ↔
    ∃ part, m.CutsOff address (present kinds) part ∧ fault = .truncated part (max address m.size + 1) m.size
  /-- Kinds after an omitted one or beyond the fourth make no difference. -/
  unheeded : ∀ others, present others = present kinds → decode m address others = decode m address kinds
  /-- Addresses that are not at the very end of 64 bits do not overflow, and there is never a fifth operand. -/
  unstopped : address < 0xFFFFFFFFFFFFFFF0 →
    Checked.Passes (Checked.readAll m address [] (kinds.take limit)) (decode m address kinds)

/-- **Operands are decoded as they are laid out.**  Of the kinds given, those before the first omitted one count, four at
most.  Decoding succeeds exactly if the image has all bytes of operands of these kinds; they are then read one after the
other.  Otherwise it reports the first byte that is missing, with the kind of operand it falls in. -/
theorem decode_as_laid_out (m : Memory) (address : Nat) (kinds : List OperandKind) : LaidOut m address kinds := by
  refine ⟨?_, ?_, ?_, ?_, passes_decode m kinds⟩
  · rcases decode_cases m address kinds with ⟨hrow, operands, hdecode, -⟩ | ⟨hrow, part, -, hdecode⟩
    · rw [hdecode]
      exact ⟨fun _ => hrow, fun _ => rfl⟩
    · rw [hdecode]
      exact ⟨nofun, fun h => absurd h hrow⟩
  · intro operands next h
    rcases decode_cases m address kinds with ⟨-, operands', hdecode, hkinds, hshows⟩ | ⟨-, part, -, hdecode⟩
    · rw [hdecode] at h
      cases h
      exact ⟨hkinds, hshows, rfl⟩
    · rw [hdecode] at h
      cases h
  · intro fault
    constructor
    · intro h
      rcases decode_cases m address kinds with ⟨-, operands, hdecode, -⟩ | ⟨-, part, hcut, hdecode⟩
      · rw [hdecode] at h
        cases h
      · rw [hdecode] at h
        cases h
        exact ⟨part, hcut, rfl⟩
    · rintro ⟨part, hcut, rfl⟩
      rw [decode_eq_readAll_present]
      exact readAll_of_cutsOff (fun kind => ne_omitted_of_mem_present) hcut
  · intro others hothers
    rw [decode_eq_readAll_present, decode_eq_readAll_present, hothers]

/-- A byte and the first half of a word; the file ends within the word. -/
example : decode ⟨#[0x99, 0x10, 0x12], 0⟩ 1 [.var, .large, .omitted, .small] = .error (.truncated .largeConstant 4 3) :=
  rfl

end Operand

end ZMachine
