import ZMachine.Proofs.Report

/-!
# Fetched instructions

What is known of an instruction once it has been fetched, and of the fault if it could not be.

* `Instruction.Suits`: an instruction has the parts that its operation calls for, and not too many operands;
* `Instruction.suits_of_fetch`: every fetched instruction suits its operation;
* `Instruction.isMalformed_of_fetch`: fetching fails only because of the instruction itself.
-/

namespace ZMachine

/-- Whether a fault lies in the instruction itself: it is cut off, it is not executed here, or it has too few operands.
Such a fault is found before the instruction does anything. -/
def Fault.isMalformed : Fault → Bool
  | .truncated .. | .unimplemented .. | .missingOperands .. => true
  | _ => false

theorem Memory.isMalformed_of_codeByte {m : Memory} {part : Part} {address : Nat} {fault : Fault}
    (h : m.codeByte part address = .error fault) : fault.isMalformed := by
  unfold codeByte at h
  split at h <;> cases h
  rfl

/-! ### Operands -/

namespace Operand

variable {m : Memory}

theorem length_of_readAll {kinds : List OperandKind} {address next : Nat} {operands : List Operand}
    (h : readAll m address kinds = .ok (operands, next)) : operands.length ≤ kinds.length := by
  induction kinds generalizing address next operands with
  | nil =>
    cases h
    exact Nat.le_refl 0
  | cons kind kinds ih =>
    cases kind with
    | omitted =>
      cases h
      exact Nat.zero_le _
    | large =>
      simp only [readAll, bind_eq_ok_iff] at h
      obtain ⟨hi, -, lo, -, ⟨rest, next'⟩, hr, h⟩ := h
      cases h
      exact Nat.succ_le_succ (ih hr)
    | small | var =>
      simp only [readAll, bind_eq_ok_iff] at h
      obtain ⟨byte, -, ⟨rest, next'⟩, hr, h⟩ := h
      cases h
      exact Nat.succ_le_succ (ih hr)

theorem isMalformed_of_readAll {kinds : List OperandKind} {address : Nat} {fault : Fault}
    (h : readAll m address kinds = .error fault) : fault.isMalformed := by
  induction kinds generalizing address with
  | nil => cases h
  | cons kind kinds ih =>
    cases kind with
    | omitted => cases h
    | large =>
      simp only [readAll, bind_eq_error_iff] at h
      rcases h with h | ⟨hi, -, h | ⟨lo, -, h | ⟨rest, -, h⟩⟩⟩
      · exact Memory.isMalformed_of_codeByte h
      · exact Memory.isMalformed_of_codeByte h
      · exact ih h
      · cases h
    | small | var =>
      simp only [readAll, bind_eq_error_iff] at h
      rcases h with h | ⟨byte, -, h | ⟨rest, -, h⟩⟩
      · exact Memory.isMalformed_of_codeByte h
      · exact ih h
      · cases h

end Operand

/-! ### Whole instructions -/

namespace Instruction

variable {m : Memory} {address : Nat} {i i' : Instruction} {op : Operation} {fault : Fault}

/-- The instruction has the parts that an operation calls for, and no more operands than an instruction can have. -/
structure Suits (i : Instruction) (op : Operation) : Prop where
  operands_le : i.operands.length ≤ Operand.limit
  store : i.store.isSome = op.entry.stores
  branch : i.branch.isSome = op.entry.branches

theorem decode_spec (h : decode m address = .ok i) :
    i.operands.length ≤ Operand.limit ∧ i.store = none ∧ i.branch = none := by
  simp only [decode, bind_eq_ok_iff] at h
  obtain ⟨opcode, -, ⟨kinds, start⟩, -, ⟨operands, next⟩, ho, h⟩ := h
  cases h
  have hl := Operand.length_of_readAll ho
  rw [List.length_take] at hl
  exact ⟨Nat.le_trans hl (Nat.min_le_left _ _), rfl, rfl⟩

theorem readStore_spec (h : i.readStore m = .ok i') :
    ∃ number, i' = { i with store := some number, nextPc := i.nextPc + 1 } := by
  simp only [readStore, bind_eq_ok_iff] at h
  obtain ⟨number, -, h⟩ := h
  cases h
  exact ⟨number, rfl⟩

theorem readBranch_spec (h : i.readBranch m = .ok i') :
    ∃ branch nextPc, i' = { i with branch := some branch, nextPc } := by
  unfold readBranch at h
  split at h
  · cases h
  · dsimp only at h
    split at h
    · cases h
      exact ⟨_, _, rfl⟩
    · split at h
      · cases h
      · cases h
        exact ⟨_, _, rfl⟩

theorem isMalformed_of_decode (h : decode m address = .error fault) : fault.isMalformed := by
  simp only [decode, bind_eq_error_iff] at h
  rcases h with h | ⟨opcode, -, h | ⟨⟨kinds, start⟩, -, h | ⟨operands, -, h⟩⟩⟩
  · exact Memory.isMalformed_of_codeByte h
  · unfold operandKinds at h
    split at h
    · cases h
    · cases h
    · rcases bind_eq_error_iff.1 h with h | ⟨types, -, h⟩
      · exact Memory.isMalformed_of_codeByte h
      · cases h
  · exact Operand.isMalformed_of_readAll h
  · cases h

theorem isMalformed_of_readStore (h : i.readStore m = .error fault) : fault.isMalformed := by
  rcases bind_eq_error_iff.1 h with h | ⟨number, -, h⟩
  · exact Memory.isMalformed_of_codeByte h
  · cases h

theorem isMalformed_of_readBranch {cut : Cut} (h : i.readBranch m = .error cut) : cut.fault.isMalformed := by
  unfold readBranch at h
  split at h
  · next hb =>
    cases h
    exact Memory.isMalformed_of_codeByte hb
  · dsimp only at h
    split at h
    · cases h
    · split at h
      · next hb =>
        cases h
        exact Memory.isMalformed_of_codeByte hb
      · cases h

/-- The two tails, each read if the operation has it. -/
theorem complete_eq (hop : Operation.lookup? i.count i.number = some op) :
    i.complete m =
      (if op.entry.stores then i.readStore m else .ok i) >>= fun j =>
        (if op.entry.branches then (j.readBranch m).mapError Cut.fault else .ok j) >>= fun k => .ok (k, op) := by
  simp only [complete, hop]
  cases op.entry.stores <;> cases op.entry.branches <;> rfl

/-- A decoded instruction that gets its tails suits its operation. -/
theorem suits_of_complete (hl : i.operands.length ≤ Operand.limit) (hs : i.store = none) (hb : i.branch = none)
    (h : i.complete m = .ok (i', op)) : i'.Suits op := by
  cases hop : Operation.lookup? i.count i.number with
  | none => simp [complete, hop] at h
  | some op' =>
    rw [complete_eq hop] at h
    obtain ⟨j, hj, h⟩ := bind_eq_ok_iff.1 h
    obtain ⟨k, hk, h⟩ := bind_eq_ok_iff.1 h
    cases h
    -- the store variable, then the branch: each tail leaves the other parts alone
    have hjs : j.operands = i.operands ∧ j.store.isSome = op.entry.stores ∧ j.branch = none := by
      split at hj
      · next hst =>
        obtain ⟨number, rfl⟩ := readStore_spec hj
        simp [hst, hb]
      · next hst =>
        cases hj
        simp [hst, hs, hb]
    obtain ⟨hjo, hjs, hjb⟩ := hjs
    split at hk
    · next hbr =>
      cases hr : j.readBranch m with
      | error cut =>
        rw [hr] at hk
        cases hk
      | ok k' =>
        rw [hr] at hk
        cases hk
        obtain ⟨branch, nextPc, rfl⟩ := readBranch_spec hr
        exact ⟨hjo ▸ hl, hjs, hbr.symm⟩
    · next hbr =>
      cases hk
      exact ⟨hjo ▸ hl, hjs, by simp [hjb, hbr]⟩

theorem isMalformed_of_complete (h : i.complete m = .error fault) : fault.isMalformed := by
  cases hop : Operation.lookup? i.count i.number with
  | none =>
    simp only [complete, hop] at h
    cases h
    rfl
  | some op =>
    rw [complete_eq hop] at h
    rcases bind_eq_error_iff.1 h with h | ⟨j, -, h⟩
    · split at h
      · exact isMalformed_of_readStore h
      · cases h
    · rcases bind_eq_error_iff.1 h with h | ⟨k, -, h⟩
      · split at h
        · cases hr : j.readBranch m with
          | error cut =>
            rw [hr] at h
            cases h
            exact isMalformed_of_readBranch hr
          | ok k =>
            rw [hr] at h
            cases h
        · cases h
      · cases h

/-- **Every fetched instruction suits its operation.** -/
theorem suits_of_fetch (h : fetch m address = .ok (i, op)) : i.Suits op := by
  obtain ⟨j, hj, h⟩ := bind_eq_ok_iff.1 h
  obtain ⟨hl, hs, hb⟩ := decode_spec hj
  exact suits_of_complete hl hs hb h

/-- **Fetching fails only because of the instruction itself.** -/
theorem isMalformed_of_fetch (h : fetch m address = .error fault) : fault.isMalformed := by
  rcases bind_eq_error_iff.1 h with h | ⟨j, -, h⟩
  · exact isMalformed_of_decode h
  · exact isMalformed_of_complete h

end Instruction

end ZMachine
