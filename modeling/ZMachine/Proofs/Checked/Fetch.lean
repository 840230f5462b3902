import ZMachine.Proofs.Checked.Access
import ZMachine.Proofs.Encoding

/-!
# Checked decoding

Fetching an instruction with all checks made.  In an image of fewer than 2³² bytes none of them fails, wherever in the
image or beyond its end the instruction is looked for.

* `Checked.readAll`: the operands, put one after the other into a row of four places;
* `Checked.readStore`, `Checked.readBranch`: the tails, at addresses of 32 bits;
* `Checked.passes_fetch`: fetching is not stopped;
* `Operand.Numbered`, `Instruction.numbered_of_fetch`: the variables among the operands are those that have a number.
-/

namespace ZMachine

/-! ### Operands one at a time -/

namespace Operand

variable {m : Memory} {address next : Nat} {kinds : List OperandKind} {operands : List Operand}

/-- The operand of a kind at an address. -/
def read (m : Memory) (address : Nat) : OperandKind → Except Fault Operand
  | .large => do
    let hi ← m.codeByte .largeConstant address
    let lo ← m.codeByte .largeConstant (address + 1)
    return .large (Word.ofBytes hi lo)
  | .small => do
    let byte ← m.codeByte .smallConstant address
    return .small byte
  | .var | .omitted => do
    let byte ← m.codeByte .variableNumber address
    return .var (.ofNumber byte)

theorem readAll_cons {kind : OperandKind} (h : kind ≠ .omitted) :
    readAll m address (kind :: kinds) =
      read m address kind >>= fun operand =>
        readAll m (address + kind.size) kinds >>= fun rest => .ok (operand :: rest.1, rest.2) := by
  cases kind with
  | omitted => exact absurd rfl h
  | large =>
    rw [readAll, read]
    cases m.codeByte .largeConstant address with
    | error fault => rfl
    | ok hi => cases m.codeByte .largeConstant (address + 1) <;> rfl
  | small =>
    rw [readAll, read]
    cases m.codeByte .smallConstant address <;> rfl
  | var =>
    rw [readAll, read]
    cases m.codeByte .variableNumber address <;> rfl

/-- What stands after an omitted operand makes no difference. -/
theorem readAll_append_omitted (m : Memory) (address : Nat) (kinds rest : List OperandKind) :
    readAll m address (kinds ++ .omitted :: rest) = readAll m address kinds := by
  induction kinds generalizing address with
  | nil => rfl
  | cons kind kinds ih =>
    by_cases hkind : kind = .omitted
    · subst hkind
      rfl
    · rw [List.cons_append, readAll_cons hkind, readAll_cons hkind, ih]

/-- An operand as decoding makes it: if it is a variable, one that has a number. -/
def Numbered : Operand → Prop
  | .var source => ∃ number, source = .ofNumber number
  | _ => True

theorem numbered_of_read {kind : OperandKind} {operand : Operand} (h : read m address kind = .ok operand) :
    operand.Numbered := by
  cases kind with
  | large =>
    obtain ⟨hi, -, h⟩ := bind_eq_ok_iff.1 h
    obtain ⟨lo, -, h⟩ := bind_eq_ok_iff.1 h
    cases h
    trivial
  | small =>
    obtain ⟨byte, -, h⟩ := bind_eq_ok_iff.1 h
    cases h
    trivial
  | var | omitted =>
    obtain ⟨byte, -, h⟩ := bind_eq_ok_iff.1 h
    cases h
    exact ⟨byte, rfl⟩

theorem numbered_of_readAll (h : readAll m address kinds = .ok (operands, next)) :
    ∀ operand ∈ operands, operand.Numbered := by
  induction kinds generalizing address next operands with
  | nil =>
    cases h
    nofun
  | cons kind kinds ih =>
    by_cases hkind : kind = .omitted
    · subst hkind
      cases h
      nofun
    · rw [readAll_cons hkind] at h
      obtain ⟨first, hfirst, h⟩ := bind_eq_ok_iff.1 h
      obtain ⟨⟨rest, next'⟩, hrest, h⟩ := bind_eq_ok_iff.1 h
      cases h
      intro operand hmem
      rcases List.mem_cons.1 hmem with rfl | hmem
      · exact numbered_of_read hfirst
      · exact ih hrest operand hmem

end Operand

namespace Instruction

variable {m : Memory} {address : Nat} {i : Instruction} {op : Operation}

theorem numbered_of_decode (h : decode m address = .ok i) : ∀ operand ∈ i.operands, operand.Numbered := by
  simp only [decode, bind_eq_ok_iff] at h
  obtain ⟨opcode, -, ⟨kinds, start⟩, -, ⟨operands, next⟩, ho, h⟩ := h
  cases h
  exact Operand.numbered_of_readAll ho

theorem numbered_of_fetch (hsize : m.size < UInt32.size) (h : fetch m address = .ok (i, op)) :
    ∀ operand ∈ i.operands, operand.Numbered := by
  obtain ⟨j, hj, h⟩ := bind_eq_ok_iff.1 h
  obtain ⟨-, hs, hb⟩ := decode_spec hj
  obtain ⟨long, -, hi, -⟩ := consumes_of_complete hsize hs hb h
  have hoperands : i.operands = j.operands := by rw [hi]
  rw [hoperands]
  exact numbered_of_decode hj

/-- The distance of a branch has at most 14 bits. -/
theorem offset_bounds {b : Branch} (hsize : m.size < UInt32.size) (h : fetch m address = .ok (i, op))
    (hb : i.branch = some b) : -0x2000 ≤ b.offset ∧ b.offset < 0x2000 := by
  obtain ⟨types, long, hw⟩ := written_of_fetch hsize h
  have hfits := hw.branch b hb
  cases long <;> simp only [Branch.Fits] at hfits <;> omega

end Instruction

namespace Checked

variable {m : Memory} {address : Nat} {i : Instruction}

/-! ### Operands -/

/-- A row of four places, filled up with a blank. -/
def padded {α : Type} (blank : α) (elements : List α) : List α :=
  (elements ++ List.replicate Operand.limit blank).take Operand.limit

/-- Put an operand after the others, in a row of four places. -/
def pushOperand (operands : List Operand) (operand : Operand) : Option (List Operand) :=
  if operands.length < Operand.limit then some (operands ++ [operand]) else none

/-- The operand of a kind at an address. -/
def operandAt (m : Memory) (address : Nat) : OperandKind → Checked Operand
  | .large => do
    let hi ← codeByte m .largeConstant address
    let next ← sum UInt64.size address 1
    let lo ← codeByte m .largeConstant next
    return .large (Word.ofBytes hi lo)
  | .small => do
    let byte ← codeByte m .smallConstant address
    return .small byte
  | .var | .omitted => do
    let byte ← codeByte m .variableNumber address
    let source ← variableOf byte
    return .var source

/-- The operands of the given kinds from an address on, after those that have been read. -/
def readAll (m : Memory) (address : Nat) (operands : List Operand) : List OperandKind → Checked (List Operand × Nat)
  | [] => return (operands, address)
  | kind :: kinds =>
    if kind = .omitted then
      return (operands, address)
    else do
      let operand ← operandAt m address kind
      let operands ← pushOperand operands operand
      let next ← sum UInt64.size address kind.size
      readAll m next operands kinds

theorem length_padded {α : Type} (blank : α) (elements : List α) : (padded blank elements).length = Operand.limit := by
  unfold padded
  rw [List.length_take, List.length_append, List.length_replicate]
  omega

theorem slice_padded {α : Type} {blank : α} {elements : List α} (h : elements.length ≤ Operand.limit) :
    slice (padded blank elements) elements.length = some elements := by
  rw [slice_eq (by rw [length_padded]; exact h)]
  unfold padded
  rw [List.take_take, Nat.min_eq_left h, List.take_left]

theorem passes_operandAt {kind : OperandKind} (h : address + 2 < UInt64.size) :
    Passes (operandAt m address kind) (Operand.read m address kind) := by
  have h₁ : address + 1 < UInt64.size := by omega
  cases kind with
  | large =>
    refine .bind (passes_codeByte h₁) fun hi _ => .check (sum_eq h₁) ?_
    exact .bind (passes_codeByte h) fun lo _ => .pure _
  | small => exact .bind (passes_codeByte h₁) fun byte _ => .pure _
  | var | omitted => exact .bind (passes_codeByte h₁) fun byte _ => .check (variableOf_eq byte) (.pure _)

/-- Four kinds of operand never make a fifth operand. -/
theorem passes_readAll {kinds : List OperandKind} (address : Nat) (operands : List Operand)
    (hroom : operands.length + kinds.length ≤ Operand.limit) (h : address + 2 * kinds.length + 2 < UInt64.size) :
    Passes (readAll m address operands kinds)
      ((Operand.readAll m address kinds).map fun r => (operands ++ r.1, r.2)) := by
  induction kinds generalizing address operands with
  | nil =>
    simp only [readAll, Operand.readAll, map_ok, List.append_nil]
    exact .pure _
  | cons kind kinds ih =>
    rw [List.length_cons] at hroom h
    unfold readAll
    by_cases hkind : kind = .omitted
    · subst hkind
      simp only [if_true, Operand.readAll, map_ok, List.append_nil]
      exact .pure _
    · have hsize : kind.size ≤ 2 := by cases kind <;> decide
      have hpush : ∀ operand, pushOperand operands operand = some (operands ++ [operand]) :=
        fun operand => if_pos (by omega)
      rw [if_neg hkind, Operand.readAll_cons hkind, except_map_bind]
      refine .bind (passes_operandAt (by omega)) fun operand _ => .check (hpush operand) (.check (sum_eq (by omega)) ?_)
      -- one operand more has been read and there is one kind less to come
      have hrest := ih (address + kind.size) (operands ++ [operand]) (by simp; omega) (by omega)
      cases hr : Operand.readAll m (address + kind.size) kinds with
      | error fault =>
        rw [hr] at hrest
        exact hrest
      | ok rest =>
        rw [hr] at hrest
        simpa using hrest

/-! ### The part up to the operands -/

/-- The operand kinds in a row of four places, and the address where the operands start, given the address after the opcode
byte. -/
def operandKinds (m : Memory) (start : Nat) (opcode : UInt8) : Checked (List OperandKind × Nat) :=
  let row := Array.replicate Operand.limit OperandKind.omitted
  match Form.ofOpcode opcode with
  | .long => do
    let row ← update row 0 (if opcode.toNat / 64 % 2 = 1 then .var else .small)
    let row ← update row 1 (if opcode.toNat / 32 % 2 = 1 then .var else .small)
    return (row.toList, start)
  | .short =>
    match OperandCount.ofOpcode opcode with
    | .one => do
      let row ← update row 0 (.ofBits (opcode >>> 4))
      return (row.toList, start)
    | _ => return (row.toList, start)
  | .var => do
    let types ← codeByte m .operandTypes start
    let start ← sum UInt64.size start 1
    return (OperandKind.ofTypeByte types, start)

/-- The instruction at an address up to its operands. -/
def decode (m : Memory) (address : Nat) : Checked Instruction := do
  let opcode ← codeByte m .opcode address
  let start ← sum UInt64.size address 1
  let (kinds, start) ← operandKinds m start opcode
  let (operands, next) ← readAll m start [] kinds
  return {
    address := UInt32.ofNat address
    opcode
    number := Form.number opcode
    form := Form.ofOpcode opcode
    count := OperandCount.ofOpcode opcode
    operands
    store := none
    branch := none
    nextPc := UInt32.ofNat next
  }

theorem passes_operandKinds {opcode : UInt8} (h : address + 2 < UInt64.size) :
    Passes (operandKinds m (address + 1) opcode)
      ((Instruction.operandKinds m address opcode).map fun r => (padded .omitted r.1, r.2)) := by
  unfold operandKinds Instruction.operandKinds
  cases Form.ofOpcode opcode with
  | long =>
    refine .check (update_eq (by decide) _) (.check (update_eq ?_ _) (.pure _))
    rw [Array.size_setIfInBounds]
    decide
  | short =>
    unfold Instruction.shortKinds
    cases OperandCount.ofOpcode opcode with
    | one => exact .check (update_eq (by decide) _) (.pure _)
    | zero | two | var => exact .pure _
  | var =>
    rw [except_map_bind]
    exact .bind (passes_codeByte h) fun types _ => .check (sum_eq h) (.pure _)

/-- There are at most four kinds of operand, and the operands start right after the opcode byte or one byte later. -/
theorem operandKinds_bounds {opcode : UInt8} {kinds : List OperandKind} {start : Nat}
    (h : Instruction.operandKinds m address opcode = .ok (kinds, start)) :
    kinds.length ≤ Operand.limit ∧ start ≤ address + 2 := by
  unfold Instruction.operandKinds at h
  split at h
  · cases h
    exact ⟨show 2 ≤ 4 by decide, by omega⟩
  · cases h
    refine ⟨?_, by omega⟩
    unfold Instruction.shortKinds
    split
    · exact show 1 ≤ 4 by decide
    · exact Nat.zero_le _
  · obtain ⟨types, -, h⟩ := bind_eq_ok_iff.1 h
    cases h
    exact ⟨show 4 ≤ 4 by decide, by omega⟩

theorem readAll_padded {kinds : List OperandKind} (h : kinds.length ≤ Operand.limit) :
    Operand.readAll m address (padded .omitted kinds) = Operand.decode m address kinds := by
  unfold padded Operand.decode
  rw [List.take_append, List.take_replicate, List.take_of_length_le h]
  rcases hfree : min (Operand.limit - kinds.length) Operand.limit with _ | free
  · rw [List.replicate_zero, List.append_nil]
  · rw [List.replicate_succ, Operand.readAll_append_omitted]

theorem passes_decode (h : address < UInt32.size) : Passes (decode m address) (Instruction.decode m address) := by
  have h : address < 4294967296 := h
  refine .bind (passes_codeByte (lt_limit (by omega))) fun opcode _ => .check (sum_eq (lt_limit (by omega))) ?_
  refine .bind_map (passes_operandKinds (lt_limit (by omega))) fun r hr => ?_
  obtain ⟨hkinds, hstart⟩ := operandKinds_bounds hr
  have hrow : (padded .omitted r.1).length = 4 := length_padded _ _
  have hroom : ([] : List Operand).length + (padded .omitted r.1).length ≤ Operand.limit := by
    rw [hrow]
    decide
  have hread := passes_readAll (m := m) r.2 [] hroom (lt_limit (by omega))
  rw [readAll_padded hkinds] at hread
  exact .bind_map hread fun _ _ => .pure _

/-! ### The tails -/

/-- The address after a byte, in 32 bits. -/
def nextAddress (pc : UInt32) : Option UInt32 := do
  let next ← sum UInt32.size pc.toNat 1
  return UInt32.ofNat next

/-- Read the store variable that follows. -/
def readStore (i : Instruction) (m : Memory) : Checked Instruction := do
  let number ← codeByte m .storeVariable i.nextPc.toNat
  let nextPc ← nextAddress i.nextPc
  return { i with store := some number, nextPc }

/-- Read the branch that follows. -/
def readBranch (i : Instruction) (m : Memory) : Checked Instruction := do
  let first ← codeByte m .branchOffset i.nextPc.toNat
  let nextPc ← nextAddress i.nextPc
  let onTrue : Bool := first.toNat / 128 = 1
  if first.toNat / 64 % 2 = 1 then
    return { i with branch := some ⟨onTrue, (first.toNat % 64 : Nat)⟩, nextPc }
  else
    let second ← codeByte m .branchOffset nextPc.toNat
    let nextPc ← nextAddress nextPc
    return { i with branch := some ⟨onTrue, Branch.longOffset first second⟩, nextPc }

/-- The instruction at an address with its tails, and its operation. -/
def fetch (m : Memory) (address : Nat) : Checked (Instruction × Operation) := do
  let i ← decode m address
  match Operation.lookup? i.count i.number with
  | none => throw (.unimplemented i.opcode i.count i.number i.address)
  | some op =>
    let i ← (if op.entry.stores then readStore i m else pure i)
    let i ← (if op.entry.branches then readBranch i m else pure i)
    return (i, op)

theorem passes_codeByte_pc {part : Part} (pc : UInt32) :
    Passes (codeByte m part pc.toNat) (m.codeByte part pc.toNat) := by
  have := pc.toNat_lt
  exact passes_codeByte (lt_limit (by omega))

/-- There is an address after a byte that stands in a short enough image. -/
theorem nextAddress_eq {pc : UInt32} {part : Part} {byte : UInt8} (hsize : m.size < UInt32.size)
    (h : m.codeByte part pc.toNat = .ok byte) : nextAddress pc = some (pc + 1) := by
  have hlt : pc.toNat < m.size := (Array.getElem?_eq_some_iff.1 (Memory.codeByte_eq_ok_iff.1 h)).1
  unfold nextAddress
  rw [sum_eq (by omega)]
  show some (UInt32.ofNat (pc.toNat + 1)) = _
  rw [UInt32.ofNat_add, UInt32.ofNat_toNat]
  rfl

theorem passes_readStore (hsize : m.size < UInt32.size) : Passes (readStore i m) (i.readStore m) :=
  .bind (passes_codeByte_pc i.nextPc) fun _ hn => .check (nextAddress_eq hsize hn) (.pure _)

theorem passes_readBranch (hsize : m.size < UInt32.size) :
    Passes (readBranch i m) ((i.readBranch m).mapError Instruction.Cut.fault) := by
  rw [Instruction.readBranch_eq]
  refine .bind (passes_codeByte_pc i.nextPc) fun first hfirst => .check (nextAddress_eq hsize hfirst) ?_
  refine .ite (fun _ => .pure _) fun _ => ?_
  exact .bind (passes_codeByte_pc _) fun second hsecond => .check (nextAddress_eq hsize hsecond) (.pure _)

/-- **Fetching is not stopped**, in an image of fewer than 2³² bytes and at any address of 32 bits. -/
theorem passes_fetch (hsize : m.size < UInt32.size) (h : address < UInt32.size) :
    Passes (fetch m address) (Instruction.fetch m address) := by
  refine .bind (passes_decode h) fun i _ => ?_
  cases hop : Operation.lookup? i.count i.number with
  | none =>
    simp only [Instruction.complete, hop]
    exact .throw _
  | some op =>
    rw [Instruction.complete_eq hop]
    dsimp only
    refine .bind (.ite (fun _ => passes_readStore hsize) fun _ => .pure _) fun j _ => ?_
    exact .bind (.ite (fun _ => passes_readBranch hsize) fun _ => .pure _) fun k _ => .pure _

end Checked

end ZMachine
