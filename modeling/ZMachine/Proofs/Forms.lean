import ZMachine.Proofs.CarryOut
import ZMachine.Proofs.Tails

/-!
# Two forms of one instruction

An instruction with two operands can be written in the long form, where two bits of the opcode byte tell small constants
from variables, or in the variable form, which has a byte of operand types and so is one byte longer.  Nothing but the
address of the next instruction comes to depend on the form.

* `ByteOperand`, `Instruction.longHead`, `Instruction.variableHead`: the two ways to write an instruction;
* `Instruction.decode_longHead`, `Instruction.decode_variableHead`: what they are read as;
* `Effect.Parallel`, `Effect.parallel_of`: the effects of the two instructions;
* `Machine.Parallel`, `Machine.carryOut_parallel`: what comes of them;
* `Instruction.long_and_variable_forms_agree`: all of this together.
-/

namespace ZMachine

/-! ### The two ways to write an instruction -/

/-- The lowest two bits decide the kind. -/
theorem OperandKind.ofBits_congr {x y : UInt8} (h : x.toNat % 4 = y.toNat % 4) : ofBits x = ofBits y := by
  unfold ofBits
  rw [h]

/-- An operand that takes one byte: a small constant, or a variable by its number. -/
structure ByteOperand where
  isVariable : Bool
  byte : UInt8
deriving DecidableEq, Repr

namespace ByteOperand

/-- The operand as it is decoded. -/
def operand (a : ByteOperand) : Operand :=
  if a.isVariable then .var (.ofNumber a.byte) else .small a.byte

/-- The kind of the operand. -/
def kind (a : ByteOperand) : OperandKind :=
  if a.isVariable then .var else .small

/-- The two bits for the kind in a byte of operand types. -/
def code (a : ByteOperand) : UInt8 :=
  if a.isVariable then 2 else 1

theorem code_lt (a : ByteOperand) : a.code < 4 := by
  unfold code
  split <;> decide

theorem ofBits_code (a : ByteOperand) : OperandKind.ofBits a.code = a.kind := by
  unfold code kind
  split <;> rfl

/-- Reading operands begins with the one whose byte stands at the address. -/
theorem readAll_cons_kind {m : Memory} {address next : Nat} {a : ByteOperand} {kinds : List OperandKind}
    {operands : List Operand} (h : m.bytes[address]? = some a.byte)
    (hrest : Operand.readAll m (address + 1) kinds = .ok (operands, next)) :
    Operand.readAll m address (a.kind :: kinds) = .ok (a.operand :: operands, next) := by
  obtain ⟨isVariable, byte⟩ := a
  cases isVariable with
  | false => exact bind_eq_ok_iff.2 ⟨byte, Memory.codeByte_eq_ok_iff.2 h, bind_eq_ok_iff.2 ⟨_, hrest, rfl⟩⟩
  | true => exact bind_eq_ok_iff.2 ⟨byte, Memory.codeByte_eq_ok_iff.2 h, bind_eq_ok_iff.2 ⟨_, hrest, rfl⟩⟩

end ByteOperand

namespace Instruction

/-- The opcode byte of the long form: bit 6 is set if the first operand is a variable, and bit 5 if the second is. -/
def longOpcode (number : UInt8) (a b : ByteOperand) : UInt8 :=
  number + (if a.isVariable then 0x40 else 0) + (if b.isVariable then 0x20 else 0)

/-- The byte of operand types for two operands; the third slot is marked as omitted, and the last can be anything. -/
def operandTypes (a b : ByteOperand) (last : UInt8) : UInt8 :=
  a.code * 0x40 + b.code * 0x10 + 0x0C + last

/-- The long form of an instruction up to its operands. -/
def longHead (number : UInt8) (a b : ByteOperand) : List UInt8 :=
  [longOpcode number a b, a.byte, b.byte]

/-- The variable form of an instruction up to its operands. -/
def variableHead (number : UInt8) (a b : ByteOperand) (last : UInt8) : List UInt8 :=
  [0xC0 + number, operandTypes a b last, a.byte, b.byte]

variable {m : Memory} {address : Nat} {number last : UInt8} {a b : ByteOperand}

theorem toNat_longOpcode (hn : number < 32) :
    (longOpcode number a b).toNat = number.toNat + 64 * a.isVariable.toNat + 32 * b.isVariable.toNat := by
  have hlt : number.toNat < 32 := hn
  obtain ⟨isVariable, byte⟩ := a
  obtain ⟨isVariable', byte'⟩ := b
  unfold longOpcode
  cases isVariable <;> cases isVariable' <;> simp [UInt8.toNat_add] <;> omega

theorem toNat_variableOpcode (hn : number < 32) : (0xC0 + number).toNat = 192 + number.toNat := by
  have hlt : number.toNat < 32 := hn
  rw [UInt8.toNat_add]
  simp
  omega

theorem longKinds_longOpcode (hn : number < 32) : longKinds (longOpcode number a b) = [a.kind, b.kind] := by
  have hlt : number.toNat < 32 := hn
  unfold longKinds
  rw [toNat_longOpcode hn]
  obtain ⟨isVariable, byte⟩ := a
  obtain ⟨isVariable', byte'⟩ := b
  cases isVariable <;> cases isVariable' <;> simp [ByteOperand.kind] <;> omega

theorem toNat_operandTypes (hl : last < 4) :
    (operandTypes a b last).toNat = a.code.toNat * 64 + b.code.toNat * 16 + 12 + last.toNat := by
  have hlt : last.toNat < 4 := hl
  obtain ⟨isVariable, byte⟩ := a
  obtain ⟨isVariable', byte'⟩ := b
  unfold operandTypes
  cases isVariable <;> cases isVariable' <;> simp [ByteOperand.code, UInt8.toNat_add] <;> omega

theorem ofTypeByte_operandTypes (hl : last < 4) :
    OperandKind.ofTypeByte (operandTypes a b last) = [a.kind, b.kind, .omitted, .ofBits last] := by
  have hlt : last.toNat < 4 := hl
  have htypes := toNat_operandTypes (a := a) (b := b) hl
  have ha : a.code.toNat < 4 := a.code_lt
  have hb : b.code.toNat < 4 := b.code_lt
  have hshift : ∀ n : UInt8, n.toNat < 8 →
      (operandTypes a b last >>> n).toNat = (operandTypes a b last).toNat / 2 ^ n.toNat := by
    intro n hn
    rw [UInt8.toNat_shiftRight, Nat.mod_eq_of_lt hn]
    exact Nat.shiftRight_eq_div_pow _ _
  have h6 : OperandKind.ofBits (operandTypes a b last >>> 6) = .ofBits a.code := by
    apply OperandKind.ofBits_congr
    rw [hshift 6 (by decide), htypes]
    show (_ / 64) % 4 = _
    omega
  have h4 : OperandKind.ofBits (operandTypes a b last >>> 4) = .ofBits b.code := by
    apply OperandKind.ofBits_congr
    rw [hshift 4 (by decide), htypes]
    show (_ / 16) % 4 = _
    omega
  have h2 : OperandKind.ofBits (operandTypes a b last >>> 2) = .ofBits 3 := by
    apply OperandKind.ofBits_congr
    rw [hshift 2 (by decide), htypes]
    show (_ / 4) % 4 = 3
    omega
  have h0 : OperandKind.ofBits (operandTypes a b last) = .ofBits last := by
    apply OperandKind.ofBits_congr
    omega
  rw [OperandKind.ofTypeByte, h6, h4, h2, h0, a.ofBits_code, b.ofBits_code]
  rfl

/-- An opcode byte below 128 is one of the long form. -/
theorem form_of_lt {opcode : UInt8} (h : opcode.toNat < 128) : Form.ofOpcode opcode = .long := by
  unfold Form.ofOpcode
  split
  · omega
  · omega
  · rfl

/-- An opcode byte from 192 on is one of the variable form. -/
theorem form_of_ge {opcode : UInt8} (h : 192 ≤ opcode.toNat) : Form.ofOpcode opcode = .var := by
  have hlt := opcode.toNat_lt
  have htop : opcode.toNat / 64 = 3 := by omega
  simp only [Form.ofOpcode, htop]

/-- **The long form** is read as the instruction that it writes. -/
theorem decode_longHead (hn : number < 32) (h : m.Holds address (longHead number a b)) :
    decode m address = .ok
      { address := UInt32.ofNat address, opcode := longOpcode number a b, number, form := .long, count := .two,
        operands := [a.operand, b.operand], store := none, branch := none, nextPc := UInt32.ofNat (address + 3) } := by
  have hlt : number.toNat < 32 := hn
  have hopcode := toNat_longOpcode (a := a) (b := b) hn
  have ha := Bool.toNat_le a.isVariable
  have hb := Bool.toNat_le b.isVariable
  have hform : Form.ofOpcode (longOpcode number a b) = .long := form_of_lt (by omega)
  have hcount : OperandCount.ofOpcode (longOpcode number a b) = .two := by
    rw [OperandCount.ofOpcode, hform]
  have hnumber : Form.number (longOpcode number a b) = number := by
    apply UInt8.toNat_inj.1
    simp only [Form.number, hform, UInt8.toNat_ofNat']
    omega
  have hkinds : operandKinds m address (longOpcode number a b) = .ok ([a.kind, b.kind], address + 1) := by
    rw [operandKinds, hform, ← longKinds_longOpcode hn]
  have hread : Operand.decode m (address + 1) [a.kind, b.kind] = .ok ([a.operand, b.operand], address + 3) :=
    ByteOperand.readAll_cons_kind (h 1 (by decide : 1 < 3)) (ByteOperand.readAll_cons_kind (h 2 (by decide : 2 < 3)) rfl)
  simp only [decode, bind_eq_ok_iff]
  refine ⟨_, Memory.codeByte_eq_ok_iff.2 (h 0 (by decide : 0 < 3)), _, hkinds, _, hread, ?_⟩
  rw [hform, hcount, hnumber]
  rfl

/-- **The variable form** is read as the same instruction, but one byte longer. -/
theorem decode_variableHead (hn : number < 32) (hl : last < 4) (h : m.Holds address (variableHead number a b last)) :
    decode m address = .ok
      { address := UInt32.ofNat address, opcode := 0xC0 + number, number, form := .var, count := .two,
        operands := [a.operand, b.operand], store := none, branch := none, nextPc := UInt32.ofNat (address + 4) } := by
  have hlt : number.toNat < 32 := hn
  have hopcode := toNat_variableOpcode hn
  have hform : Form.ofOpcode (0xC0 + number) = .var := form_of_ge (by omega)
  have hcount : OperandCount.ofOpcode (0xC0 + number) = .two := by
    simp only [OperandCount.ofOpcode, hform]
    exact if_pos (by omega)
  have hnumber : Form.number (0xC0 + number) = number := by
    apply UInt8.toNat_inj.1
    simp only [Form.number, hform, UInt8.toNat_ofNat']
    omega
  have hkinds : operandKinds m address (0xC0 + number) = .ok ([a.kind, b.kind, .omitted, .ofBits last], address + 2) := by
    rw [operandKinds, hform, ← ofTypeByte_operandTypes hl]
    exact bind_eq_ok_iff.2 ⟨_, Memory.codeByte_eq_ok_iff.2 (h 1 (by decide : 1 < 4)), rfl⟩
  -- the slot after the omitted one is not looked at
  have hread : Operand.decode m (address + 2) [a.kind, b.kind, .omitted, .ofBits last] =
      .ok ([a.operand, b.operand], address + 4) :=
    ByteOperand.readAll_cons_kind (h 2 (by decide : 2 < 4)) (ByteOperand.readAll_cons_kind (h 3 (by decide : 3 < 4)) rfl)
  simp only [decode, bind_eq_ok_iff]
  refine ⟨_, Memory.codeByte_eq_ok_iff.2 (h 0 (by decide : 0 < 4)), _, hkinds, _, hread, ?_⟩
  rw [hform, hcount, hnumber]
  rfl

end Instruction

/-! ### Effects -/

/-- The effects of two instructions that differ in where the next one starts: they are the same, but that a jump leads one
byte further. -/
inductive Effect.Parallel : Effect → Effect → Prop
  | nothing : Parallel .nothing .nothing
  | jump (pc : UInt32) : Parallel (.jump pc) (.jump (pc + 1))
  | store (target : Variable) (value : UInt16) : Parallel (.store target value) (.store target value)
  | assign (target : Variable) (value : UInt16) : Parallel (.assign target value) (.assign target value)
  | leave (value : UInt16) : Parallel (.leave value) (.leave value)
  | fail (fault : Fault) : Parallel (.fail fault) (.fail fault)

/-- An instruction that is another one in all that matters to its operation, but for the address of the next one, which is
one higher. -/
structure Instruction.Twin (i j : Instruction) : Prop where
  operands : j.operands = i.operands
  store : j.store = i.store
  branch : j.branch = i.branch
  nextPc : j.nextPc = i.nextPc + 1

namespace Effect

variable {i j : Instruction} {op : Operation}

theorem parallel_result (h : i.Twin j) (r : Except Fault UInt16) : (result i r).Parallel (result j r) := by
  unfold result Instruction.target
  rw [h.store]
  cases r with
  | error fault => exact .fail fault
  | ok value =>
    cases i.store with
    | none => exact .nothing
    | some number => exact .store _ value

theorem parallel_branch (h : i.Twin j) (holds : Bool) : (branch i holds).Parallel (branch j holds) := by
  unfold branch
  rw [h.branch]
  cases i.branch with
  | none => exact .nothing
  | some b =>
    dsimp only
    split
    · unfold Branch.destination
      by_cases h0 : b.offset = 0
      · simp only [if_pos h0]
        exact .leave 0
      · by_cases h1 : b.offset = 1
        · simp only [if_neg h0, if_pos h1]
          exact .leave 1
        · simp only [if_neg h0, if_neg h1]
          rw [h.nextPc, jumpTarget_add_one]
          exact .jump _
    · exact .nothing

/-- **The effects of an operation on two operands** are the same whichever of two such instructions asks for it. -/
theorem parallel_of (h : i.Twin j) (hop : op.entry.count = .two) (m : Machine) (pc : UInt32) (values : List UInt16) :
    (of m op i values).Parallel (of { m with pc } op j values) := by
  unfold of
  cases op.test? values with
  | some holds => exact parallel_branch h holds
  | none =>
    dsimp only
    cases op with
    | je | jl | jg => exact .fail _
    | or | and | add | sub | mul | div | mod | loadw | loadb =>
      rcases values with _ | ⟨a, _ | ⟨b, rest⟩⟩
      · exact .fail _
      · exact .fail _
      · exact parallel_result h _
    | store =>
      rcases values with _ | ⟨name, _ | ⟨value, rest⟩⟩
      · exact .fail _
      · exact .fail _
      · exact .assign _ value
    | _ => cases hop

end Effect

/-- What parallel effects come to at addresses one apart: the same failure; the same change, still at addresses one apart;
or the same return to fewer frames than the given number. -/
inductive Report.Parallel (depth : Nat) : Report Fault Unit → Report Fault Unit → Prop
  | failed (fault : Fault) (m : Machine) (pc : UInt32) (events : List Event) :
      Parallel depth ⟨.error fault, m, events⟩ ⟨.error fault, { m with pc }, events⟩
  | stayed (m : Machine) (events : List Event) (kept : depth ≤ m.calls.depth) :
      Parallel depth ⟨.ok (), m, events⟩ ⟨.ok (), { m with pc := m.pc + 1 }, events⟩
  | returned (m : Machine) (events : List Event) (fewer : m.calls.depth < depth) :
      Parallel depth ⟨.ok (), m, events⟩ ⟨.ok (), m, events⟩

namespace Effect

variable {m : Machine} {pc : UInt32}

/-- A variable is set in parallel. -/
theorem parallel_attempt {value : UInt16} {events : List Event} {change : Except Fault Machine} (hpc : pc = m.pc + 1)
    (hsets : ∀ m', change = .ok m' → m.Sets value m') :
    Report.Parallel m.calls.depth (.attempt m events change)
      (.attempt { m with pc } events (change.map fun m' => { m' with pc })) := by
  cases change with
  | error fault => exact .failed fault m pc []
  | ok m' =>
    have hsets' := hsets m' rfl
    have hpc' : pc = m'.pc + 1 := by
      rw [hpc]
      cases hsets' <;> rfl
    subst hpc'
    exact .stayed m' events (Nat.le_of_eq (Machine.within_of_sets hsets').depth_eq.symm)

/-- **Parallel effects come to the same**, but for the address. -/
theorem Parallel.apply {e e' : Effect} (h : e.Parallel e') (hpc : pc = m.pc + 1) :
    Report.Parallel m.calls.depth (e.apply m) (e'.apply { m with pc }) := by
  cases h with
  | nothing =>
    subst hpc
    exact .stayed m [] (Nat.le_refl _)
  | jump target => exact .stayed { m with pc := target } [] (Nat.le_refl _)
  | fail fault => exact .failed fault m pc []
  | store target value =>
    show Report.Parallel _ (.attempt m _ (m.write? target value)) (.attempt _ _ ({ m with pc }.write? target value))
    rw [m.write?_moved pc]
    exact parallel_attempt hpc fun m' hw => Machine.sets_of_write? hw
  | assign target value =>
    show Report.Parallel _ (.attempt m _ (m.assign? target value)) (.attempt _ _ ({ m with pc }.assign? target value))
    rw [m.assign?_moved pc]
    exact parallel_attempt hpc fun m' hw => Machine.sets_of_assign? hw
  | leave value =>
    show Report.Parallel _ (m.leave value) ({ m with pc }.leave value)
    rcases m.leave_moved pc value with ⟨hmoved, hdepth⟩ | ⟨hleave, hmoved⟩
    · rw [hmoved]
      rcases hleave : m.leave value with ⟨fault | ⟨⟩, m', events⟩
      · exact .failed fault m' m'.pc events
      · rw [hleave] at hdepth
        exact .returned m' events hdepth
    · rw [hleave, hmoved]
      exact .failed .returnFromTopLevel m pc []

end Effect

/-! ### Steps -/

namespace Machine

/-- What comes of two instructions on one machine: the same result and the same changes.  The address after the second is
one higher, unless they have returned from a routine or failed. -/
structure Parallel (m : Machine) (x y : Report Failure Progress) : Prop where
  result : y.result = x.result
  machine : y.machine = { x.machine with pc := y.machine.pc }
  stayed : x.result.isOk → m.calls.depth ≤ x.machine.calls.depth → y.machine.pc = x.machine.pc + 1
  returned : x.result.isOk → x.machine.calls.depth < m.calls.depth → y.machine.pc = x.machine.pc
  failed : ¬x.result.isOk → y.machine.pc = x.machine.pc

variable {i j : Instruction} {op : Operation}

/-- **Two instructions that differ in where the next one starts** come to the same, but for the address. -/
theorem carryOut_parallel (m : Machine) (h : i.Twin j) (hop : op.entry.count = .two) :
    m.Parallel (m.carryOut i op) (m.carryOut j op) := by
  have hlength : j.operands.length = i.operands.length := by rw [h.operands]
  by_cases hfew : i.operands.length < op.entry.minOperands
  · rw [carryOut_of_few hfew, carryOut_of_few (hlength ▸ hfew), hlength]
    exact ⟨rfl, rfl, nofun, nofun, fun _ => rfl⟩
  have henough : op.entry.minOperands ≤ i.operands.length := Nat.not_lt.1 hfew
  have henough' : op.entry.minOperands ≤ j.operands.length := hlength ▸ henough
  -- the operands are read in the same way, at addresses one apart
  have hmoved : (Action.operandValues j.operands).report { m with pc := j.nextPc } =
      ((Action.operandValues i.operands).report { m with pc := i.nextPc }).movedTo j.nextPc := by
    rw [h.operands, ← Action.report_operandValues_moved]
  obtain ⟨n, result, -, hread, -, -⟩ := Action.report_operandValues i.operands { m with pc := i.nextPc }
  rw [hread] at hmoved
  cases result with
  | error fault =>
    rw [carryOut_of_unread henough hread, carryOut_of_unread henough' hmoved]
    exact ⟨rfl, rfl, nofun, nofun, fun _ => rfl⟩
  | ok values =>
    have hparallel := (Effect.parallel_of h hop { m with pc := i.nextPc, calls := m.calls.discard n } j.nextPc
      values).apply (m := { m with pc := i.nextPc, calls := m.calls.discard n }) h.nextPc
    generalize he : Effect.apply _ (Effect.of _ op i values) = x at hparallel
    generalize he' : Effect.apply _ (Effect.of _ op j values) = y at hparallel
    cases hparallel with
    | failed fault m' pc events =>
      rw [carryOut_error henough hread he, carryOut_error henough' hmoved he']
      exact ⟨rfl, rfl, nofun, nofun, fun _ => rfl⟩
    | stayed m' events kept =>
      rw [carryOut_ok henough hread he, carryOut_ok henough' hmoved he']
      exact ⟨rfl, rfl, fun _ _ => rfl, fun _ hlt => absurd hlt (Nat.not_lt.2 kept), fun hnot => absurd rfl hnot⟩
    | returned m' events fewer =>
      rw [carryOut_ok henough hread he, carryOut_ok henough' hmoved he']
      exact ⟨rfl, rfl, fun _ hle => absurd fewer (Nat.not_lt.2 hle), fun _ _ => rfl, fun hnot => absurd rfl hnot⟩

end Machine

/-! ### The two forms together -/

namespace Instruction

/-- The parts of an instruction with two operands, but for its form, and the number of its bytes. -/
structure Consists (i : Instruction) (address : Nat) (number : UInt8) (operands : List Operand) (store : Option UInt8)
    (branch : Option Branch) (size : Nat) : Prop where
  address : i.address = UInt32.ofNat address
  number : i.number = number
  count : i.count = .two
  operands : i.operands = operands
  store : i.store = store
  branch : i.branch = branch
  size : i.size = size

variable {long var : Memory} {address : Nat} {number last : UInt8} {a b : ByteOperand}

theorem size_of_nextPc {i : Instruction} {n k : Nat} (h : n + k < 4294967296)
    (hnext : i.nextPc = UInt32.ofNat (address + n) + UInt32.ofNat k) (haddress : i.address = UInt32.ofNat address) :
    i.size = n + k := by
  rw [size, hnext, haddress, UInt32.ofNat_add, UInt32.add_assoc, UInt32.add_comm, UInt32.add_sub_cancel,
    ← UInt32.ofNat_add, UInt32.toNat_ofNat']
  exact Nat.mod_eq_of_lt h

theorem nextPc_eq (i : Instruction) : i.nextPc = i.address + UInt32.ofNat i.size := by
  rw [size, UInt32.ofNat_toNat, UInt32.add_comm, UInt32.sub_add_cancel]

/-- **Two instructions of the same parts** differ in where the next one starts, if one is a byte longer. -/
theorem Consists.twin {i j : Instruction} {operands : List Operand} {store : Option UInt8} {branch : Option Branch}
    {size : Nat} (hi : i.Consists address number operands store branch size)
    (hj : j.Consists address number operands store branch (size + 1)) : i.Twin j := by
  refine ⟨hj.operands.trans hi.operands.symm, hj.store.trans hi.store.symm, hj.branch.trans hi.branch.symm, ?_⟩
  rw [nextPc_eq, nextPc_eq i, hj.address, hi.address, hj.size, hi.size, UInt32.ofNat_add, UInt32.add_assoc]
  rfl

/-- What the long form in one image and the variable form in another come to at an address. -/
structure FormsAgree (long var : Memory) (address : Nat) (number : UInt8) (a b : ByteOperand) : Prop where
  decoded : ∃ i j, decode long address = .ok i ∧ decode var address = .ok j ∧
    i.Consists address number [a.operand, b.operand] none none 3 ∧
    j.Consists address number [a.operand, b.operand] none none 4
  unimplemented : Operation.lookup? .two number = none →
    fetch long address = .error (.unimplemented (longOpcode number a b) .two number (UInt32.ofNat address)) ∧
      fetch var address = .error (.unimplemented (0xC0 + number) .two number (UInt32.ofNat address))
  /-- Followed by the same tail, the two forms are fetched as the same instruction, and do the same on every machine. -/
  fetched : ∀ op, Operation.lookup? .two number = some op → ∀ tail store branch, op.HasTail tail store branch →
    long.HoldsFrom (UInt32.ofNat (address + 3)) tail → var.HoldsFrom (UInt32.ofNat (address + 4)) tail →
    ∃ i j, fetch long address = .ok (i, op) ∧ fetch var address = .ok (j, op) ∧
      i.Consists address number [a.operand, b.operand] store branch (3 + tail.length) ∧
      j.Consists address number [a.operand, b.operand] store branch (4 + tail.length) ∧
      ∀ m : Machine, m.Parallel (m.carryOut i op) (m.carryOut j op)

/-- **The two forms of an instruction with two operands agree.**  Written at the same address, with the same operands and
followed by the same bytes, they are read as the same instruction, the variable form one byte longer; and they do the same
on every machine, but that execution goes on one byte further after the variable form, if it goes on in the routine. -/
theorem long_and_variable_forms_agree (hnumber : number < 32) (hlast : last < 4)
    (hlong : long.Holds address (longHead number a b)) (hvar : var.Holds address (variableHead number a b last)) :
    FormsAgree long var address number a b := by
  have hi := decode_longHead hnumber hlong
  have hj := decode_variableHead hnumber hlast hvar
  refine ⟨⟨_, _, hi, hj, ⟨rfl, rfl, rfl, rfl, rfl, rfl, ?_⟩, ⟨rfl, rfl, rfl, rfl, rfl, rfl, ?_⟩⟩, fun hnone => ⟨?_, ?_⟩,
    fun op hop tail store branch htail hl hv => ?_⟩
  · exact size_of_nextPc (k := 0) (by decide) (UInt32.add_zero _).symm rfl
  · exact size_of_nextPc (k := 0) (by decide) (UInt32.add_zero _).symm rfl
  · rw [fetch, hi, ok_bind]
    simp only [complete, hnone]
    rfl
  · rw [fetch, hj, ok_bind]
    simp only [complete, hnone]
    rfl
  · obtain ⟨hcount, -⟩ := Operation.lookup?_eq_some_iff.1 hop
    have hlength := htail.length_le
    obtain ⟨i, hfi, hci⟩ : ∃ i, fetch long address = .ok (i, op) ∧
        i.Consists address number [a.operand, b.operand] store branch (3 + tail.length) :=
      ⟨_, fetch_of_tail hi hop htail hl, rfl, rfl, rfl, rfl, rfl, rfl, size_of_nextPc (by omega) rfl rfl⟩
    obtain ⟨j, hfj, hcj⟩ : ∃ j, fetch var address = .ok (j, op) ∧
        j.Consists address number [a.operand, b.operand] store branch (4 + tail.length) :=
      ⟨_, fetch_of_tail hj hop htail hv, rfl, rfl, rfl, rfl, rfl, rfl, size_of_nextPc (by omega) rfl rfl⟩
    have htwin : i.Twin j := hci.twin (by rw [Nat.add_right_comm]; exact hcj)
    exact ⟨i, j, hfi, hfj, hci, hcj, fun m => m.carryOut_parallel htwin hcount⟩

/-- A story that compares the stack with a number in the long form, and another with the variable form in its place.  On a
match they return true. -/
def matching : Array UInt8 :=
  #[3, 0, 0, 1, 0, 34, 0, 34, 0, 34, 0, 34, 0, 16, 0, 34, 0, 0, 48, 48, 48, 48, 48, 48, 0, 34, 0, 0, 0, 0, 0, 0, 0, 0,
    0x41, 0x00, 0x07, 0xC1]

@[inherit_doc matching]
def matchingVariable : Array UInt8 :=
  #[3, 0, 0, 1, 0, 34, 0, 34, 0, 34, 0, 34, 0, 16, 0, 34, 0, 0, 48, 48, 48, 48, 48, 48, 0, 34, 0, 0, 0, 0, 0, 0, 0, 0,
    0xC1, 0x9D, 0x00, 0x07, 0xC1]

theorem matching_forms_agree :
    ∃ long var, Memory.ofStory matching = .ok long ∧ Memory.ofStory matchingVariable = .ok var ∧
      FormsAgree long var 34 1 ⟨true, 0⟩ ⟨false, 7⟩ ∧
      Operation.HasTail .je [0xC1] none (some ⟨true, 1⟩) ∧ long.HoldsFrom 37 [0xC1] ∧ var.HoldsFrom 38 [0xC1] := by
  refine ⟨_, _, rfl, rfl, ?_, ?_, ?_, ?_⟩
  · exact @long_and_variable_forms_agree _ _ 34 1 1 ⟨true, 0⟩ ⟨false, 7⟩ (by decide) (by decide) (by decide) (by decide)
  · exact ⟨rfl, rfl, [0xC1], rfl, @Branch.SpelledBy.short 0xC1 rfl⟩
  · exact ⟨rfl, trivial⟩
  · exact ⟨rfl, trivial⟩

end Instruction

end ZMachine
