import ZMachine.Proofs.Checked.Property

/-!
# Checked operations

Performing an operation with all checks made.  An operation looks at no more operands than its entry asks for, so that with
as many operands none of the checks fails.

* `Checked.enter`, `Checked.leave`: calls and returns;
* `Checked.perform`, `Checked.perform_eq`: all operations.
-/

namespace ZMachine

namespace Checked

/-! ### Calls and returns -/

section Routine

variable {m : Machine} {routine : Nat} {arguments : List UInt16} {returnStore : Option UInt8} {value : UInt16}

/-- The address that a packed routine address stands for. -/
def unpack (m : Machine) (packed : UInt16) : Option Nat :=
  product UInt64.size packed.toNat (Machine.packingUnit m.version)

/-- The initial values of a number of locals from a slot on, and the address after them. -/
def initialValues (m : Memory) (address slot : Nat) : Nat → Checked (List UInt16 × Nat)
  | 0 => return ([], address)
  | count + 1 => do
    let word ← readWord m address
    let slot ← place localLimit slot
    let next ← sum UInt64.size address 2
    let (words, stop) ← initialValues m next (slot + 1) count
    return (word :: words, stop)

/-- The initial values of a routine's locals and the address of its first instruction. -/
def routineStart (m : Machine) (routine : Nat) (declared : UInt8) : Checked (List UInt16 × Nat) := do
  let code ← sum UInt64.size routine 1
  if m.version ≤ 4 then
    initialValues m.memory code 0 declared.toNat
  else
    return ([], code)

/-- The frame of a call to a routine, and the address of the routine's first instruction. -/
def frameAt (m : Machine) (routine : Nat) (arguments : List UInt16) (returnStore : Option UInt8) :
    Checked (Frame × Nat) := do
  let declared ← m.memory.readByte routine
  let frame ← Frame.create (UInt32.ofNat routine) m.pc returnStore declared
  let (initial, start) ← routineStart m routine declared
  let frame := frame.setLocals initial arguments
  let _active ← slice frame.locals.toList frame.declared.toNat
  return (frame, start)

/-- The machine after entering a routine. -/
def enter? (m : Machine) (routine : Nat) (arguments : List UInt16) (returnStore : Option UInt8) : Checked Machine := do
  let (frame, start) ← frameAt m routine arguments returnStore
  let calls ← m.calls.push frame
  return { m with calls, pc := UInt32.ofNat start }

/-- Enter a routine and report it. -/
def enter (m : Machine) (routine : Nat) (arguments : List UInt16) (returnStore : Option UInt8) :
    Option (Report Fault Unit) := do
  match ← (enter? m routine arguments returnStore).run with
  | .ok m' => return ⟨.ok (), m', [m'.entry]⟩
  | .error fault => return ⟨.error fault, m, []⟩

/-- A change of the machine that is made as a whole and followed by events, or not made at all. -/
def attempt (m : Machine) (events : List Event) (change : Checked Machine) : Option (Report Fault Unit) := do
  let change ← change.run
  return .attempt m events change

/-- Leave the current routine with a value. -/
def leave (m : Machine) (value : UInt16) : Option (Report Fault Unit) :=
  match m.caller?, m.calls.current.returnStore with
  | none, _ => return ⟨.error .returnFromTopLevel, m, []⟩
  | some m', none => return ⟨.ok (), m', [.left m'.calls.depth value m'.pc]⟩
  | some m', some number => do
    let target ← variableOf number
    attempt m' [.stored target value, .left m'.calls.depth value m'.pc] (write m' target value)

theorem unpack_lt (m : Machine) (packed : UInt16) : m.unpack packed < 0x80000 := by
  have hpacked := packed.toNat_lt
  have hunit : Machine.packingUnit m.version ≤ 8 := by
    unfold Machine.packingUnit
    split
    · decide
    · split <;> decide
  have hmul : packed.toNat * Machine.packingUnit m.version ≤ 65535 * 8 := Nat.mul_le_mul (by omega) hunit
  unfold Machine.unpack
  omega

theorem unpack_eq (m : Machine) (packed : UInt16) : unpack m packed = some (m.unpack packed) :=
  product_eq (lt_limit (Nat.lt_trans (unpack_lt m packed) (by decide)))

theorem passes_initialValues (memory : Memory) (address : Nat) {slot count : Nat} (hslot : slot + count ≤ localLimit)
    (h : address + 2 * count + 2 < UInt64.size) :
    Passes (initialValues memory address slot count)
      ((memory.readWords address count).map fun words => (words, address + 2 * count)) := by
  induction count generalizing address slot with
  | zero => exact .pure _
  | succ count ih =>
    unfold Memory.readWords
    rw [except_map_bind]
    refine .bind (passes_readWord (by omega)) fun word _ => .check (place_eq (by omega)) (.check (sum_eq (by omega)) ?_)
    rw [except_map_bind]
    refine .bind_map (ih (address + 2) (by omega) (by omega)) fun words _ => ?_
    have hstop : address + 2 + 2 * count = address + 2 * (count + 1) := by omega
    rw [hstop]
    exact .pure _

theorem passes_routineStart {declared : UInt8} (hr : routine < 0x80000) (hd : declared.toNat ≤ localLimit) :
    Passes (routineStart m routine declared) (Action.routineStart m routine declared) := by
  have hd' : declared.toNat ≤ 15 := hd
  refine .check (sum_eq (lt_limit (by omega))) (.ite (fun _ => ?_) fun _ => .pure _)
  have hslots : 0 + declared.toNat ≤ localLimit := by omega
  have hwords := passes_initialValues m.memory (routine + 1) hslots (lt_limit (by omega))
  cases hr : m.memory.readWords (routine + 1) declared.toNat <;> rw [hr] at hwords <;> exact hwords

theorem passes_frameAt (hr : routine < 0x80000) :
    Passes (frameAt m routine arguments returnStore) (m.frameAt routine arguments returnStore) := by
  refine .bind (.lift _) fun declared _ => .bind (.lift _) fun frame hframe => ?_
  obtain ⟨hd, rfl⟩ := Frame.create_eq_ok_iff.1 hframe
  refine .bind (passes_routineStart hr hd) fun start _ => .check (slice_eq ?_) (.pure _)
  rw [Frame.declared_setLocals, Vector.length_toList]
  exact hd

theorem enter_eq (hr : routine < 0x80000) :
    enter m routine arguments returnStore = some (m.enter routine arguments returnStore) := by
  have hpass : Passes (enter? m routine arguments returnStore) (m.enter? routine arguments returnStore) :=
    .bind (passes_frameAt hr) fun _ _ => .bind (.lift _) fun _ _ => .pure _
  have hpass : (enter? m routine arguments returnStore).run = some (m.enter? routine arguments returnStore) := hpass
  unfold enter Machine.enter
  rw [hpass]
  cases m.enter? routine arguments returnStore <;> rfl

theorem attempt_eq {change : Checked Machine} {r : Except Fault Machine} (h : Passes change r) (m : Machine)
    (events : List Event) : attempt m events change = some (.attempt m events r) := by
  have h : change.run = some r := h
  unfold attempt
  rw [h]
  rfl

theorem leave_eq (m : Machine) (value : UInt16) : leave m value = some (m.leave value) := by
  unfold leave Machine.leave
  cases m.caller? with
  | none => rfl
  | some m' =>
    cases m.calls.current.returnStore with
    | none => rfl
    | some number =>
      dsimp only
      rw [variableOf_eq]
      exact attempt_eq (passes_write number value) m' _

end Routine

/-! ### The operations -/

section Perform

variable {m : Machine} {i : Instruction}

/-- Where a jump over a distance leads, computed with signed numbers of 64 bits. -/
def jumpTarget (nextPc : UInt32) (offset : Int) : Option UInt32 := do
  let far ← signedSum nextPc.toNat offset
  let target ← signedSum far (-2)
  return UInt32.ofInt target

/-- A divisor, which must not be zero. -/
def divisor (b : UInt16) : Option Int16 :=
  if b = 0 then none else some b.toInt16

/-- A quotient or a remainder of signed words. -/
def divided (f : Int16 → Int16 → Int16) (a b : UInt16) : Checked UInt16 := do
  if b = 0 then
    throw .divisionByZero
  else
    let d ← divisor b
    return (f a.toInt16 d).toUInt16

/-- The address of a word in an array. -/
def wordAddress (array index : UInt16) : Option Nat := do
  let offset ← product UInt64.size 2 index.toNat
  sum UInt64.size array.toNat offset

/-- The address of a byte in an array. -/
def byteAddress (array index : UInt16) : Option Nat :=
  sum UInt64.size array.toNat index.toNat

/-- Set a variable that takes a result and report it. -/
def storeVariable (m : Machine) (number : UInt8) (value : UInt16) : Option (Report Fault Unit) := do
  let target ← variableOf number
  attempt m [.stored target value] (write m target value)

/-- Store a computed result where the instruction says. -/
def storeResult (m : Machine) (i : Instruction) (result : Checked UInt16) : Option (Report Fault Unit) := do
  match ← result.run with
  | .error fault => return ⟨.error fault, m, []⟩
  | .ok value =>
    match i.store with
    | some number => storeVariable m number value
    | none => return ⟨.ok (), m, []⟩

/-- Set a variable named by a value and report it. -/
def assignNamed (m : Machine) (name value : UInt16) : Option (Report Fault Unit) := do
  let target ← variableOf (Word.low name)
  attempt m [.stored target value] (assign m target value)

/-- Take the branch of an instruction if the test came out as it asks. -/
def branch (m : Machine) (i : Instruction) (holds : Bool) : Option (Report Fault Unit) :=
  match i.branch with
  | none => return ⟨.ok (), m, []⟩
  | some b =>
    if holds = b.onTrue then
      if b.offset = 0 then leave m 0
      else if b.offset = 1 then leave m 1
      else do
        let pc ← jumpTarget i.nextPc b.offset
        return ⟨.ok (), { m with pc }, []⟩
    else
      return ⟨.ok (), m, []⟩

/-- Call the routine at a packed address. -/
def call (m : Machine) (packed : UInt16) (arguments : List UInt16) (returnStore : Option UInt8) :
    Option (Report Fault Unit) :=
  if packed = 0 then
    match returnStore with
    | some number => storeVariable m number 0
    | none => return ⟨.ok (), m, []⟩
  else do
    let routine ← unpack m packed
    enter m routine arguments returnStore

/-- The top of the current evaluation stack and the machine without it. -/
def pop (m : Machine) : Option (Report Fault UInt16) := do
  let frame ← current m.calls
  match frame.pop with
  | .ok (value, frame) => return ⟨.ok value, m.withCurrent frame, []⟩
  | .error fault => return ⟨.error fault, m, []⟩

/-- Go on after a report; a fault ends the sequence. -/
def andThen {α β : Type} : Report Fault α → (α → Machine → Option (Report Fault β)) → Option (Report Fault β)
  | ⟨.ok a, m, events⟩, f => do
    let r ← f a m
    return { r with events := events ++ r.events }
  | ⟨.error fault, m, events⟩, _ => return ⟨.error fault, m, events⟩

/-- The effect of an operation on the values of its operands, which stand in a row. -/
def perform (m : Machine) (op : Operation) (i : Instruction) (operands : List UInt16) : Option (Report Fault Unit) :=
  match op with
  | .je => do
    let others ← sliceFrom operands 1
    let a ← operands[0]?
    branch m i (others.contains a)
  | .jl => do
    let a ← operands[0]?
    let b ← operands[1]?
    branch m i (Word.signed a < Word.signed b)
  | .jg => do
    let a ← operands[0]?
    let b ← operands[1]?
    branch m i (Word.signed b < Word.signed a)
  | .jz => do
    let a ← operands[0]?
    branch m i (a = 0)
  | .or => do
    let a ← operands[0]?
    let b ← operands[1]?
    storeResult m i (return a ||| b)
  | .and => do
    let a ← operands[0]?
    let b ← operands[1]?
    storeResult m i (return a &&& b)
  | .add => do
    let a ← operands[0]?
    let b ← operands[1]?
    storeResult m i (return a + b)
  | .sub => do
    let a ← operands[0]?
    let b ← operands[1]?
    storeResult m i (return a - b)
  | .mul => do
    let a ← operands[0]?
    let b ← operands[1]?
    storeResult m i (return a * b)
  | .div => do
    let a ← operands[0]?
    let b ← operands[1]?
    storeResult m i (divided (· / ·) a b)
  | .mod => do
    let a ← operands[0]?
    let b ← operands[1]?
    storeResult m i (divided (· % ·) a b)
  | .store => do
    let name ← operands[0]?
    let value ← operands[1]?
    assignNamed m name value
  | .load => do
    let name ← operands[0]?
    let source ← variableOf (Word.low name)
    storeResult m i (valueOf m source)
  | .loadw => do
    let array ← operands[0]?
    let index ← operands[1]?
    let address ← wordAddress array index
    storeResult m i (readWord m.memory address)
  | .loadb => do
    let array ← operands[0]?
    let index ← operands[1]?
    let address ← byteAddress array index
    storeResult m i (UInt8.toUInt16 <$> (m.memory.readByte address : Checked UInt8))
  | .storew => do
    let array ← operands[0]?
    let index ← operands[1]?
    let address ← wordAddress array index
    let value ← operands[2]?
    attempt m [] ((fun memory => { m with memory }) <$> writeWord m.memory address value)
  | .storeb => do
    let array ← operands[0]?
    let index ← operands[1]?
    let address ← byteAddress array index
    let value ← operands[2]?
    attempt m [] ((fun memory => { m with memory }) <$> writeByte m.memory address (Word.low value))
  | .push => do
    let value ← operands[0]?
    attempt m [] (write m .stack value)
  | .pull => do
    let name ← operands[0]?
    andThen (← pop m) fun value m => assignNamed m name value
  | .putProp => do
    let object ← operands[0]?
    let property ← operands[1]?
    let value ← operands[2]?
    attempt m [] (put m object (Word.low property) value)
  | .jump => do
    let distance ← operands[0]?
    let pc ← jumpTarget m.pc (Word.signed distance)
    return ⟨.ok (), { m with pc }, []⟩
  | .call => do
    let packed ← operands[0]?
    let arguments ← sliceFrom operands 1
    call m packed arguments i.store
  | .ret => do
    let value ← operands[0]?
    leave m value
  | .rtrue => leave m 1
  | .rfalse => leave m 0
  | .retPopped => do andThen (← pop m) fun value m => leave m value
  | .quit => return ⟨.ok (), m, []⟩

theorem jumpTarget_eq (nextPc : UInt32) {offset : Int} (hlow : -0x8000 ≤ offset) (hhigh : offset < 0x8000) :
    jumpTarget nextPc offset = some (ZMachine.jumpTarget nextPc offset) := by
  have hpc := nextPc.toNat_lt
  unfold jumpTarget
  rw [signedSum_eq (by omega) (by omega)]
  show (signedSum (nextPc.toNat + offset) (-2)).bind _ = _
  rw [signedSum_eq (by omega) (by omega)]
  rfl

theorem signed_bounds (w : UInt16) : -0x8000 ≤ Word.signed w ∧ Word.signed w < 0x8000 :=
  ⟨w.toInt16.le_toInt, w.toInt16.toInt_lt⟩

theorem passes_divided (f : Int16 → Int16 → Int16) (a b : UInt16) :
    Passes (divided f a b) (if b = 0 then .error .divisionByZero else .ok (f a.toInt16 b.toInt16).toUInt16) :=
  .ite (fun _ => .throw _) fun hb => .check (if_neg hb) (.pure _)

theorem storeVariable_eq (m : Machine) (number : UInt8) (value : UInt16) :
    storeVariable m number value = some ((Effect.store (.ofNumber number) value).apply m) := by
  unfold storeVariable
  rw [variableOf_eq]
  exact attempt_eq (passes_write number value) m _

theorem storeResult_eq {result : Checked UInt16} {r : Except Fault UInt16} (h : Passes result r) (m : Machine)
    (i : Instruction) : storeResult m i result = some ((Effect.result i r).apply m) := by
  have h : result.run = some r := h
  unfold storeResult Effect.result Instruction.target
  rw [h]
  cases r with
  | error fault => rfl
  | ok value =>
    cases i.store with
    | none => rfl
    | some number => exact storeVariable_eq m number value

theorem assignNamed_eq (m : Machine) (name value : UInt16) :
    assignNamed m name value = some ((Effect.assign (.ofNumber (Word.low name)) value).apply m) := by
  unfold assignNamed
  rw [variableOf_eq]
  exact attempt_eq (passes_assign (Word.low name) value) m _

theorem branch_eq (hb : ∀ b, i.branch = some b → -0x8000 ≤ b.offset ∧ b.offset < 0x8000) (m : Machine) (holds : Bool) :
    branch m i holds = some ((Effect.branch i holds).apply m) := by
  unfold branch Effect.branch
  cases hi : i.branch with
  | none => rfl
  | some b =>
    obtain ⟨hlow, hhigh⟩ := hb b hi
    dsimp only
    by_cases htaken : holds = b.onTrue
    · rw [if_pos htaken, if_pos htaken]
      unfold Branch.destination
      by_cases h0 : b.offset = 0
      · rw [if_pos h0, if_pos h0]
        exact leave_eq m 0
      · rw [if_neg h0, if_neg h0]
        by_cases h1 : b.offset = 1
        · rw [if_pos h1, if_pos h1]
          exact leave_eq m 1
        · rw [if_neg h1, if_neg h1, jumpTarget_eq i.nextPc hlow hhigh]
          rfl
    · rw [if_neg htaken, if_neg htaken]
      rfl

theorem call_eq (m : Machine) (packed : UInt16) (arguments : List UInt16) (returnStore : Option UInt8) :
    call m packed arguments returnStore = some ((Effect.call m packed arguments returnStore).apply m) := by
  unfold call Effect.call
  by_cases hp : packed = 0
  · rw [if_pos hp, if_pos hp]
    cases returnStore with
    | none => rfl
    | some number => exact storeVariable_eq m number 0
  · rw [if_neg hp, if_neg hp, unpack_eq]
    exact enter_eq (unpack_lt m packed)

theorem pop_eq (m : Machine) : pop m = some m.pop := by
  unfold pop Machine.pop
  rw [current_eq]
  simp only [Option.bind_eq_bind, Option.bind_some]
  cases m.calls.current.pop <;> rfl

theorem andThen_eq {α β : Type} {r : Report Fault α} {f : α → Machine → Option (Report Fault β)}
    {g : α → Machine → Report Fault β} (h : ∀ a, r.result = .ok a → f a r.machine = some (g a r.machine)) :
    andThen r f = some (r.andThen g) := by
  obtain ⟨fault | a, m, events⟩ := r
  · rfl
  · have ha : f a m = some (g a m) := h a rfl
    show (f a m).bind _ = _
    rw [ha]
    rfl

theorem wordAddress_eq (array index : UInt16) : wordAddress array index = some (array.toNat + 2 * index.toNat) := by
  have harray := array.toNat_lt
  have hindex := index.toNat_lt
  unfold wordAddress
  rw [product_eq (lt_limit (by omega))]
  exact sum_eq (lt_limit (by omega))

theorem byteAddress_eq (array index : UInt16) : byteAddress array index = some (array.toNat + index.toNat) := by
  have harray := array.toNat_lt
  have hindex := index.toNat_lt
  exact sum_eq (lt_limit (by omega))

theorem exists_one {values : List UInt16} (h : 1 ≤ values.length) : ∃ a rest, values = a :: rest := by
  rcases values with _ | ⟨a, rest⟩
  · cases h
  · exact ⟨a, rest, rfl⟩

theorem exists_two {values : List UInt16} (h : 2 ≤ values.length) : ∃ a b rest, values = a :: b :: rest := by
  obtain ⟨a, rest, rfl⟩ := exists_one (Nat.le_of_succ_le h)
  obtain ⟨b, rest, rfl⟩ := exists_one (Nat.le_of_succ_le_succ h)
  exact ⟨a, b, rest, rfl⟩

theorem exists_three {values : List UInt16} (h : 3 ≤ values.length) : ∃ a b c rest, values = a :: b :: c :: rest := by
  obtain ⟨a, b, rest, rfl⟩ := exists_two (Nat.le_of_succ_le h)
  obtain ⟨c, rest, rfl⟩ := exists_one (Nat.le_of_succ_le_succ (Nat.le_of_succ_le_succ h))
  exact ⟨a, b, c, rest, rfl⟩

/-- **Performing an operation is not stopped**, given as many operands as its entry asks for. -/
theorem perform_eq {op : Operation} {values : List UInt16} (hm : m.Bounded)
    (hb : ∀ b, i.branch = some b → -0x8000 ≤ b.offset ∧ b.offset < 0x8000)
    (h : op.entry.minOperands ≤ values.length) :
    perform m op i values = some ((Effect.of m op i values).apply m) := by
  cases op with
  | jz =>
    obtain ⟨a, rest, rfl⟩ := exists_one h
    exact branch_eq hb m _
  | je | jl | jg =>
    obtain ⟨a, b, rest, rfl⟩ := exists_two h
    exact branch_eq hb m _
  | or | and | add | sub | mul =>
    obtain ⟨a, b, rest, rfl⟩ := exists_two h
    exact storeResult_eq (.pure _) m i
  | div =>
    obtain ⟨a, b, rest, rfl⟩ := exists_two h
    exact storeResult_eq (passes_divided (· / ·) a b) m i
  | mod =>
    obtain ⟨a, b, rest, rfl⟩ := exists_two h
    exact storeResult_eq (passes_divided (· % ·) a b) m i
  | store =>
    obtain ⟨name, value, rest, rfl⟩ := exists_two h
    exact assignNamed_eq m name value
  | load =>
    obtain ⟨name, rest, rfl⟩ := exists_one h
    show (variableOf (Word.low name)).bind _ = _
    rw [variableOf_eq]
    exact storeResult_eq (passes_valueOf (Word.low name)) m i
  | loadw =>
    obtain ⟨array, index, rest, rfl⟩ := exists_two h
    have harray := array.toNat_lt
    have hindex := index.toNat_lt
    show (wordAddress array index).bind _ = _
    rw [wordAddress_eq]
    exact storeResult_eq (passes_readWord (lt_limit (by omega))) m i
  | loadb =>
    obtain ⟨array, index, rest, rfl⟩ := exists_two h
    show (byteAddress array index).bind _ = _
    rw [byteAddress_eq]
    exact storeResult_eq (.map (.lift _) _) m i
  | storew =>
    obtain ⟨array, index, value, rest, rfl⟩ := exists_three h
    have harray := array.toNat_lt
    have hindex := index.toNat_lt
    show (wordAddress array index).bind _ = _
    rw [wordAddress_eq]
    exact attempt_eq (.map (passes_writeWord (lt_limit (by omega)) value) _) m []
  | storeb =>
    obtain ⟨array, index, value, rest, rfl⟩ := exists_three h
    show (byteAddress array index).bind _ = _
    rw [byteAddress_eq]
    exact attempt_eq (.map (passes_writeByte (Word.low value)) _) m []
  | putProp =>
    obtain ⟨object, property, value, rest, rfl⟩ := exists_three h
    exact attempt_eq (passes_put hm) m []
  | push =>
    obtain ⟨value, rest, rfl⟩ := exists_one h
    exact attempt_eq (passes_write 0 value) m []
  | pull =>
    obtain ⟨name, rest, rfl⟩ := exists_one h
    show (pop m).bind _ = _
    rw [pop_eq]
    exact andThen_eq fun value _ => assignNamed_eq _ name value
  | jump =>
    obtain ⟨distance, rest, rfl⟩ := exists_one h
    obtain ⟨hlow, hhigh⟩ := signed_bounds distance
    show (jumpTarget m.pc (Word.signed distance)).bind _ = _
    rw [jumpTarget_eq m.pc hlow hhigh]
    rfl
  | call =>
    obtain ⟨packed, arguments, rfl⟩ := exists_one h
    exact call_eq m packed arguments i.store
  | ret =>
    obtain ⟨value, rest, rfl⟩ := exists_one h
    exact leave_eq m value
  | rtrue => exact leave_eq m 1
  | rfalse => exact leave_eq m 0
  | retPopped =>
    show (pop m).bind _ = _
    rw [pop_eq]
    exact andThen_eq fun value _ => leave_eq _ value
  | quit => rfl

end Perform

end Checked

end ZMachine
