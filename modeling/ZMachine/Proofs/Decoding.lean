import ZMachine.Proofs.Encoding
import ZMachine.Proofs.Stages

/-!
# Decoding loses nothing

Fetching the instruction at the current address reads its bytes and no others: they can be told from the instruction, it
can be told from them, and where one of them is missing the fault says which.

* `Instruction.Spells`: an instruction accounts for the bytes from its address up to the next one;
* `Machine.fetch_spells`: so does every instruction that can be fetched;
* `Machine.fetch_truncated`: fetching depends on these bytes alone, and fails at the first one that is missing.
-/

namespace ZMachine

theorem Action.result_fetch (m : Machine) : (fetch.run m).result = Instruction.fetch m.memory m.pc.toNat :=
  congrArg Report.result (report_fetch m)

/-- An instruction accounts for every byte from its address up to the next instruction, given the byte of operand types and
whether its branch takes two bytes. -/
structure Instruction.Spells (i : Instruction) (op : Operation) (m : Memory) (types : UInt8) (long : Bool) : Prop where
  bytes : m.slice i.address.toNat i.nextPc.toNat = i.encode types long
  forward : i.address.toNat < i.nextPc.toNat
  /-- The operation is the one that the opcode byte stands for. -/
  classified : i.Classified
  operation : Operation.lookup? i.count i.number = some op
  /-- The operands are of the kinds that the opcode byte or the byte of operand types asks for. -/
  operands : i.operands.map Operand.kind = i.kinds types
  /-- There is a store variable, or a branch, exactly if the operation has one. -/
  store : i.store.isSome = op.entry.stores
  branch : i.branch.isSome = op.entry.branches
  fits : ∀ b, i.branch = some b → b.Fits long

/-- An image that ends at an address or before has no instruction there. -/
theorem Instruction.fetch_of_size_le {m : Memory} {address : Nat} (h : m.size ≤ address) :
    fetch m address = .error (.truncated .opcode (address + 1) m.size) := by
  rw [fetch, decode, Memory.codeByte_of_size_le .opcode h]
  rfl

namespace Machine

variable {m : Machine} {i : Instruction} {op : Operation}

/-- **Decoding loses nothing.**  In an image of fewer than 2³² bytes, the bytes from the address of a fetched instruction up
to the next one are those of the instruction: the opcode byte, the byte of operand types in the variable form, the
operands in their order, and the store variable and the branch that its operation has. -/
theorem fetch_spells (hsize : m.memory.size < UInt32.size) (h : (Action.fetch.run m).result = .ok (i, op)) :
    i.address = m.pc ∧ ∃ types long, i.Spells op m.memory types long := by
  rw [Action.result_fetch] at h
  obtain ⟨types, long, hw⟩ := Instruction.written_of_fetch hsize h
  have hsuits := Instruction.suits_of_fetch h
  refine ⟨UInt32.toNat_inj.1 hw.address_eq, types, long, ?_, ?_, hw.classified, hw.operation, hw.operands, hsuits.store,
    hsuits.branch, hw.branch⟩
  · rw [hw.address_eq, hw.nextPc_eq]
    exact hw.consumes.holds.slice_eq
  · rw [hw.address_eq, hw.nextPc_eq]
    exact Nat.lt_add_of_pos_right (List.length_pos_iff.2 (List.cons_ne_nil _ _))

/-- A story that begins with a conditional branch backwards.  In its byte of operand types a slot is omitted, and the slot
after that makes no difference. -/
def backwards : Array UInt8 :=
  #[3, 0, 0, 1, 0, 34, 0, 34, 0, 34, 0, 34, 0, 16, 0, 34, 0, 0, 48, 48, 48, 48, 48, 48, 0, 34, 0, 0, 0, 0, 0, 0, 0, 0,
    0xC1, 0x8D, 0x10, 0x12, 0x34, 0x3F, 0xFA]

theorem backwards_spells :
    ∃ m i, load backwards = .ok m ∧ (Action.fetch.run m).result = .ok (i, .je) ∧
      i.operands = [.var (.globalCell 0), .large 0x1234] ∧ i.branch = some ⟨false, -6⟩ ∧
      i.address = m.pc ∧ ∃ types long, i.Spells .je m.memory types long :=
  ⟨_, _, rfl, rfl, rfl, by decide, fetch_spells (by decide) rfl⟩

/-- **A cut file is found out at the first missing byte.**  Fetching gives the same instruction and operation on every image
that has the bytes of the instruction; on the image cut off before the last of them it fails, and the fault says how much
of the file there would have to be for the next byte to be there. -/
theorem fetch_truncated (hsize : m.memory.size < UInt32.size) (h : (Action.fetch.run m).result = .ok (i, op)) :
    (∀ memory : Memory, i.nextPc.toNat ≤ memory.size →
        (∀ k, m.pc.toNat ≤ k → k < i.nextPc.toNat → memory.bytes[k]? = m.memory.bytes[k]?) →
        (Action.fetch.run { m with memory }).result = .ok (i, op)) ∧
      ∀ size, size < i.nextPc.toNat →
        ∃ part, (Action.fetch.run { m with memory := m.memory.truncate size }).result =
          .error (.truncated part (max size m.pc.toNat + 1) size) := by
  simp only [Action.result_fetch] at h ⊢
  obtain ⟨types, long, hw⟩ := Instruction.written_of_fetch hsize h
  rw [hw.nextPc_eq]
  constructor
  · intro memory _ hagree
    exact hw.consumes.whole (hw.consumes.holds.congr hagree)
  · intro size hlt
    by_cases hle : m.pc.toNat ≤ size
    · rw [Nat.max_eq_left hle]
      exact hw.consumes.truncate hle hlt
    · -- not even the opcode byte is there
      have hend := hw.consumes.holds.le_size (List.cons_ne_nil _ _)
      have hcut : (m.memory.truncate size).size = size := m.memory.size_truncate (by omega)
      rw [Instruction.fetch_of_size_le (by omega), hcut, Nat.max_eq_right (by omega)]
      exact ⟨.opcode, rfl⟩

theorem backwards_truncated :
    ∃ m i, load backwards = .ok m ∧ (Action.fetch.run m).result = .ok (i, .je) ∧ i.nextPc = 41 ∧
      (∃ part, (Action.fetch.run { m with memory := m.memory.truncate 40 }).result = .error (.truncated part 41 40)) ∧
      ∃ part, (Action.fetch.run { m with memory := m.memory.truncate 7 }).result = .error (.truncated part 35 7) :=
  ⟨_, _, rfl, rfl, rfl, (fetch_truncated (by decide) rfl).2 40 (by decide), (fetch_truncated (by decide) rfl).2 7 (by decide)⟩

end Machine

end ZMachine
