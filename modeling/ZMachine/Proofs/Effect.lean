import ZMachine.Proofs.Frames
import ZMachine.Proofs.Report

/-!
# Effects

Once the values of its operands are known, an operation amounts to one of a dozen effects: it stores a result, assigns to a
variable, writes to memory, jumps, enters a routine, leaves one, or fails before it has done anything.  Most effects change
the machine as a whole or not at all.  The three that can fail half-way are those that pop a value first and those that
leave a routine, since the frame is gone before the value is stored.

* `Effect.of`: the effect of each operation;
* `Effect.apply`: what an effect does to a machine;
* `Action.report_perform`: performing an operation is applying its effect.
-/

namespace ZMachine

/-- What an operation amounts to. -/
inductive Effect where
  | nothing
  | jump (pc : UInt32)
  | push (value : UInt16)
  /-- A result goes to a variable. -/
  | store (target : Variable) (value : UInt16)
  /-- A variable named by a value is set. -/
  | assign (target : Variable) (value : UInt16)
  /-- A variable named by a value takes the top of the stack. -/
  | pull (target : Variable)
  | writeByte (address : Nat) (byte : UInt8)
  | writeWord (address : Nat) (word : UInt16)
  | putProperty (object : UInt16) (property : UInt8) (value : UInt16)
  | enter (routine : Nat) (arguments : List UInt16) (returnStore : Option UInt8)
  | leave (value : UInt16)
  /-- The routine is left with the top of its stack. -/
  | leavePopped
  | fail (fault : Fault)

/-- What a branching operation finds out about its operands. -/
def Operation.test? : Operation → List UInt16 → Option Bool
  | .je, a :: others => some (others.contains a)
  | .jl, a :: b :: _ => some (Word.signed a < Word.signed b)
  | .jg, a :: b :: _ => some (Word.signed b < Word.signed a)
  | .jz, a :: _ => some (a = 0)
  | _, _ => none

namespace Effect

/-- The effect of a computed result: it is stored where the instruction says. -/
def result (i : Instruction) : Except Fault UInt16 → Effect
  | .ok value => match i.target with
    | some target => .store target value
    | none => .nothing
  | .error fault => .fail fault

/-- The effect of a test: the branch is taken if the test came out as it asks. -/
def branch (i : Instruction) (holds : Bool) : Effect :=
  match i.branch with
  | none => .nothing
  | some b =>
    if holds = b.onTrue then
      match b.destination i.nextPc with
      | .returnFalse => .leave 0
      | .returnTrue => .leave 1
      | .jump pc => .jump pc
    else .nothing

/-- The effect of a call.  Address 0 is no routine: the call stores 0 at once. -/
def call (m : Machine) (packed : UInt16) (arguments : List UInt16) (returnStore : Option UInt8) : Effect :=
  if packed = 0 then
    match returnStore with
    | some number => .store (.ofNumber number) 0
    | none => .nothing
  else .enter (m.unpack packed) arguments returnStore

/-- The effect of an operation on the values of its operands. -/
def of (m : Machine) (op : Operation) (i : Instruction) (values : List UInt16) : Effect :=
  match op.test? values with
  | some holds => branch i holds
  | none =>
    match op, values with
    | .or, a :: b :: _ => result i (.ok (a ||| b))
    | .and, a :: b :: _ => result i (.ok (a &&& b))
    | .add, a :: b :: _ => result i (.ok (a + b))
    | .sub, a :: b :: _ => result i (.ok (a - b))
    | .mul, a :: b :: _ => result i (.ok (a * b))
    | .div, a :: b :: _ => result i (Word.divide a b)
    | .mod, a :: b :: _ => result i (Word.remainder a b)
    | .store, name :: value :: _ => .assign (.ofNumber (Word.low name)) value
    | .load, name :: _ => result i (m.valueOf (.ofNumber (Word.low name)))
    | .loadw, array :: index :: _ => result i (m.memory.readWord (array.toNat + 2 * index.toNat))
    | .loadb, array :: index :: _ => result i ((m.memory.readByte (array.toNat + index.toNat)).map UInt8.toUInt16)
    | .storew, array :: index :: value :: _ => .writeWord (array.toNat + 2 * index.toNat) value
    | .storeb, array :: index :: value :: _ => .writeByte (array.toNat + index.toNat) (Word.low value)
    | .push, value :: _ => .push value
    | .pull, name :: _ => .pull (.ofNumber (Word.low name))
    | .putProp, object :: property :: value :: _ => .putProperty object (Word.low property) value
    | .jump, distance :: _ => .jump (jumpTarget m.pc (Word.signed distance))
    | .call, routine :: arguments => call m routine arguments i.store
    | .ret, value :: _ => .leave value
    | .rtrue, _ => .leave 1
    | .rfalse, _ => .leave 0
    | .retPopped, _ => .leavePopped
    | .quit, _ => .nothing
    | _, _ => .fail (.missingOperands op.name op.entry.minOperands values.length)

theorem of_call (m : Machine) (i : Instruction) {packed : UInt16} (h : packed ≠ 0) (arguments : List UInt16) :
    of m .call i (packed :: arguments) = .enter (m.unpack packed) arguments i.store := by
  simp [of, Operation.test?, call, h]

end Effect

/-! ### What effects do to a machine -/

namespace Machine

/-- The top of the stack and the machine without it. -/
def pop (m : Machine) : Report Fault UInt16 :=
  match m.calls.current.pop with
  | .ok (value, frame) => ⟨.ok value, m.withCurrent frame, []⟩
  | .error fault => ⟨.error fault, m, []⟩

/-- The machine after a property write. -/
def put? (m : Machine) (object : UInt16) (property : UInt8) (value : UInt16) : Except Fault Machine :=
  match m.objects with
  | .table t => (t.put m.memory object property value).map fun memory => { m with memory }
  | .ledger writes => .ok { m with objects := .ledger (⟨object, property, value⟩ :: writes) }

/-- The frame of a call to a routine, and the address of the routine's first instruction. -/
def frameAt (m : Machine) (routine : Nat) (arguments : List UInt16) (returnStore : Option UInt8) :
    Except Fault (Frame × Nat) := do
  let declared ← m.memory.readByte routine
  let frame ← Frame.create (UInt32.ofNat routine) m.pc returnStore declared
  let (initial, start) ← Action.routineStart m routine declared
  return (frame.setLocals initial arguments, start)

/-- The machine after entering a routine. -/
def enter? (m : Machine) (routine : Nat) (arguments : List UInt16) (returnStore : Option UInt8) :
    Except Fault Machine := do
  let (frame, start) ← m.frameAt routine arguments returnStore
  let calls ← m.calls.push frame
  return { m with calls, pc := UInt32.ofNat start }

/-- The event of having entered the current routine. -/
def entry (m : Machine) : Event :=
  .entered m.calls.current.routine m.calls.current.returnPc m.calls.depth m.calls.current.declaredLocals

/-- Enter a routine and report it. -/
def enter (m : Machine) (routine : Nat) (arguments : List UInt16) (returnStore : Option UInt8) : Report Fault Unit :=
  match m.enter? routine arguments returnStore with
  | .ok m' => ⟨.ok (), m', [m'.entry]⟩
  | .error fault => ⟨.error fault, m, []⟩

/-- The machine back in the caller of the current routine, if there is one, before a value is stored there. -/
def caller? (m : Machine) : Option Machine :=
  match m.calls.callers with
  | [] => none
  | caller :: callers => some { m with calls := ⟨caller, callers⟩, pc := m.calls.current.returnPc }

/-- Leave the current routine with a value.  The frame is gone before the value is stored. -/
def leave (m : Machine) (value : UInt16) : Report Fault Unit :=
  match m.caller?, m.calls.current.returnStore with
  | none, _ => ⟨.error .returnFromTopLevel, m, []⟩
  | some m', none => ⟨.ok (), m', [.left m'.calls.depth value m'.pc]⟩
  | some m', some number =>
    .attempt m' [.stored (.ofNumber number) value, .left m'.calls.depth value m'.pc]
      (m'.write? (.ofNumber number) value)

section

variable {m m' : Machine} {routine start : Nat} {arguments : List UInt16} {returnStore : Option UInt8} {frame : Frame}

/-- A property write leaves the frames alone. -/
theorem calls_of_put? {object value : UInt16} {property : UInt8} (h : m.put? object property value = .ok m') :
    m'.calls = m.calls := by
  unfold put? at h
  split at h
  · obtain ⟨memory, -, rfl⟩ := map_eq_ok_iff.1 h
    rfl
  · cases h
    rfl

/-- The frame of a call is that of the routine, to be left for the current address, with its locals set. -/
theorem frameAt_eq_ok (h : m.frameAt routine arguments returnStore = .ok (frame, start)) :
    ∃ declared created initial, Frame.create (UInt32.ofNat routine) m.pc returnStore declared = .ok created ∧
      frame = created.setLocals initial arguments := by
  obtain ⟨declared, -, h⟩ := bind_eq_ok_iff.1 h
  obtain ⟨created, hc, h⟩ := bind_eq_ok_iff.1 h
  obtain ⟨⟨initial, start'⟩, -, h⟩ := bind_eq_ok_iff.1 h
  cases h
  exact ⟨declared, created, initial, hc, rfl⟩

/-- What was fixed about a frame when its routine was entered. -/
theorem sameCall_of_frameAt (h : m.frameAt routine arguments returnStore = .ok (frame, start)) :
    frame.routine = UInt32.ofNat routine ∧ frame.returnPc = m.pc ∧ frame.returnStore = returnStore := by
  obtain ⟨declared, created, initial, hc, rfl⟩ := frameAt_eq_ok h
  have hs := Frame.sameCall_setLocals created initial arguments
  obtain ⟨-, rfl⟩ := Frame.create_eq_ok_iff.1 hc
  exact ⟨hs.routine, hs.returnPc, hs.returnStore⟩

theorem enter?_eq_ok (h : m.enter? routine arguments returnStore = .ok m') :
    ∃ frame start, m.frameAt routine arguments returnStore = .ok (frame, start) ∧
      m.calls.push frame = .ok m'.calls ∧ m' = { m with calls := m'.calls, pc := UInt32.ofNat start } := by
  obtain ⟨⟨frame, start⟩, hf, h⟩ := bind_eq_ok_iff.1 h
  obtain ⟨calls, hp, h⟩ := bind_eq_ok_iff.1 h
  cases h
  exact ⟨frame, start, hf, hp, rfl⟩

theorem enter_eq_ok {events : List Event} (h : m.enter routine arguments returnStore = ⟨.ok (), m', events⟩) :
    m.enter? routine arguments returnStore = .ok m' := by
  unfold enter at h
  split at h
  · next hm =>
    cases h
    exact hm
  · cases h

theorem enter_eq_error {events : List Event} {fault : Fault}
    (h : m.enter routine arguments returnStore = ⟨.error fault, m', events⟩) :
    m.enter? routine arguments returnStore = .error fault ∧ m' = m := by
  unfold enter at h
  split at h
  · cases h
  · next hm =>
    cases h
    exact ⟨hm, rfl⟩

theorem caller?_eq_some (h : m.caller? = some m') :
    m.calls.callers = m'.calls.current :: m'.calls.callers ∧
      m' = { m with calls := m'.calls, pc := m.calls.current.returnPc } := by
  unfold caller? at h
  split at h
  · cases h
  · next hc =>
    cases h
    exact ⟨hc, rfl⟩

/-- A return that succeeds has stored its value in the caller, if the call asked for it. -/
theorem leave_eq_ok {value : UInt16} {events : List Event} (h : m.leave value = ⟨.ok (), m', events⟩) :
    ∃ caller, m.caller? = some caller ∧
      (m.calls.current.returnStore = none ∧ m' = caller ∨
        ∃ number, m.calls.current.returnStore = some number ∧ caller.write? (.ofNumber number) value = .ok m') := by
  unfold leave at h
  split at h
  · cases h
  · next hc hs =>
    cases h
    exact ⟨m', hc, .inl ⟨hs, rfl⟩⟩
  · next caller number hc hs => exact ⟨caller, hc, .inr ⟨number, hs, (Report.attempt_eq_ok h).1⟩⟩

/-- A return that fails has nowhere to return to, or has left the frame and could not store its value in the caller. -/
theorem leave_eq_error {value : UInt16} {events : List Event} {fault : Fault}
    (h : m.leave value = ⟨.error fault, m', events⟩) :
    fault = .returnFromTopLevel ∧ m' = m ∨
      ∃ number, m.caller? = some m' ∧ m.calls.current.returnStore = some number ∧
        m'.write? (.ofNumber number) value = .error fault := by
  unfold leave at h
  split at h
  · cases h
    exact .inl ⟨rfl, rfl⟩
  · cases h
  · next caller number hc hs =>
    obtain ⟨hw, rfl, -⟩ := Report.attempt_eq_error h
    exact .inr ⟨number, hc, hs, hw⟩

end

end Machine

/-- What an effect does to a machine. -/
def Effect.apply (m : Machine) : Effect → Report Fault Unit
  | .nothing => ⟨.ok (), m, []⟩
  | .jump pc => ⟨.ok (), { m with pc }, []⟩
  | .push value => .attempt m [] (m.write? .stack value)
  | .store target value => .attempt m [.stored target value] (m.write? target value)
  | .assign target value => .attempt m [.stored target value] (m.assign? target value)
  | .pull target => m.pop.andThen fun value m => .attempt m [.stored target value] (m.assign? target value)
  | .writeByte address byte => .attempt m [] ((m.memory.writeByte address byte).map fun memory => { m with memory })
  | .writeWord address word => .attempt m [] ((m.memory.writeWord address word).map fun memory => { m with memory })
  | .putProperty object property value => .attempt m [] (m.put? object property value)
  | .enter routine arguments returnStore => m.enter routine arguments returnStore
  | .leave value => m.leave value
  | .leavePopped => m.pop.andThen fun value m => m.leave value
  | .fail fault => ⟨.error fault, m, []⟩

/-! ### Performing an operation is applying its effect -/

namespace Action

open Report

theorem report_pop (m : Machine) : pop.report m = m.pop := by
  unfold pop Machine.pop
  simp only [report_bind, report_machine, andThen_ok, List.nil_append]
  cases m.calls.current.pop <;> rfl

theorem report_storeVariable (target : Variable) (value : UInt16) (m : Machine) :
    (storeVariable target value).report m = attempt m [.stored target value] (m.write? target value) := by
  unfold storeVariable
  rw [report_bind, report_writeVariable]
  cases m.write? target value <;> rfl

theorem report_storeNamed (target : Variable) (value : UInt16) (m : Machine) :
    (storeNamed target value).report m = attempt m [.stored target value] (m.assign? target value) := by
  unfold storeNamed
  rw [report_bind, report_assignVariable]
  cases m.assign? target value <;> rfl

theorem report_storeResult (i : Instruction) (value : UInt16) (m : Machine) :
    (storeResult i value).report m = (Effect.result i (.ok value)).apply m := by
  unfold storeResult Effect.result
  cases i.target with
  | none => rfl
  | some target => exact report_storeVariable target value m

theorem report_returnValue (value : UInt16) (m : Machine) : (returnValue value).report m = m.leave value := by
  unfold returnValue Machine.leave Machine.caller?
  rcases hc : m.calls.callers with _ | ⟨caller, callers⟩
  · simp [report_bind, CallStack.pop, hc]
  · rcases hs : m.calls.current.returnStore with _ | number
    · simp [report_bind, CallStack.pop, hc, hs]
    · simp only [report_bind, CallStack.pop, hc, hs, report_storeVariable, report_machine, report_liftM, report_update,
        report_log, andThen_ok, List.nil_append]
      cases Machine.write? _ _ _ <;> rfl

theorem report_branchIf (i : Instruction) (holds : Bool) (m : Machine) :
    (branchIf i holds).report m = (Effect.branch i holds).apply m := by
  unfold branchIf Effect.branch
  cases i.branch with
  | none => rfl
  | some b =>
    by_cases hb : holds = b.onTrue
    · simp only [hb, if_true]
      cases b.destination i.nextPc with
      | returnFalse => exact report_returnValue 0 m
      | returnTrue => exact report_returnValue 1 m
      | jump pc => rfl
    · simp [hb, Effect.apply]

theorem report_enterRoutine (routine : Nat) (arguments : List UInt16) (returnStore : Option UInt8) (m : Machine) :
    (enterRoutine routine arguments returnStore).report m = m.enter routine arguments returnStore := by
  unfold enterRoutine Machine.enter Machine.enter? Machine.frameAt
  cases hd : m.memory.readByte routine with
  | error fault => simp [report_bind, hd]
  | ok declared =>
    cases hf : Frame.create (UInt32.ofNat routine) m.pc returnStore declared with
    | error fault => simp [report_bind, hd, hf]
    | ok frame =>
      cases hs : routineStart m routine declared with
      | error fault => simp [report_bind, hd, hf, hs]
      | ok start =>
        cases hc : m.calls.push (frame.setLocals start.1 arguments) with
        | error fault => simp [report_bind, hd, hf, hs, hc, pure, Except.pure]
        | ok calls =>
          obtain ⟨-, rfl⟩ := CallStack.push_eq_ok_iff.1 hc
          simp [report_bind, hd, hf, hs, hc, pure, Except.pure, Machine.entry]

theorem report_callRoutine (packed : UInt16) (arguments : List UInt16) (returnStore : Option UInt8) (m : Machine) :
    (callRoutine packed arguments returnStore).report m = (Effect.call m packed arguments returnStore).apply m := by
  unfold callRoutine Effect.call
  by_cases hp : packed = 0
  · rw [if_pos hp, if_pos hp, report_bind]
    cases returnStore with
    | none => rfl
    | some number => simp [report_storeVariable, Effect.apply]
  · rw [if_neg hp, if_neg hp, report_bind]
    simp [report_enterRoutine, Effect.apply]

theorem report_calculate (op : Operation) (i : Instruction) (a b : UInt16) (r : Except Fault UInt16) (m : Machine) :
    (calculate op i a b r).report m = (Effect.result i r).apply m := by
  unfold calculate
  cases r with
  | error fault => simp [report_bind, Effect.result, Effect.apply]
  | ok value => simp [report_bind, report_storeResult]

theorem report_combine (op : Operation) (i : Instruction) (a b value : UInt16) (m : Machine) :
    (combine op i a b value).report m = (Effect.result i (.ok value)).apply m := by
  simp [combine, report_bind, report_storeResult]

theorem report_compare (op : Operation) (i : Instruction) (a b : UInt16) (holds : Bool) (m : Machine) :
    (compare op i a b holds).report m = (Effect.branch i holds).apply m := by
  simp [compare, report_bind, report_branchIf]

theorem report_loadWord (i : Instruction) (array index : UInt16) (m : Machine) :
    (loadWord i array index).report m =
      (Effect.result i (m.memory.readWord (array.toNat + 2 * index.toNat))).apply m := by
  unfold loadWord
  cases h : m.memory.readWord (array.toNat + 2 * index.toNat) with
  | error fault => simp [report_bind, h, Effect.result, Effect.apply]
  | ok value => simp [report_bind, h, report_storeResult]

theorem report_loadByte (i : Instruction) (array index : UInt16) (m : Machine) :
    (loadByte i array index).report m =
      (Effect.result i ((m.memory.readByte (array.toNat + index.toNat)).map UInt8.toUInt16)).apply m := by
  unfold loadByte
  cases h : m.memory.readByte (array.toNat + index.toNat) with
  | error fault => simp [report_bind, h, Effect.result, Effect.apply]
  | ok value => simp [report_bind, h, report_storeResult]

theorem report_load (i : Instruction) (name : UInt16) (m : Machine) :
    (load i name).report m = (Effect.result i (m.valueOf (.ofNumber (Word.low name)))).apply m := by
  unfold load
  rw [report_bind, report_loadVariable]
  cases m.valueOf (.ofNumber (Word.low name)) with
  | error fault => rfl
  | ok value => simp [report_bind, report_storeResult]

theorem report_pull (name : UInt16) (m : Machine) :
    (pull name).report m = (Effect.pull (.ofNumber (Word.low name))).apply m := by
  simp [pull, report_bind, report_pop, report_storeNamed, Effect.apply]

theorem report_putProperty (object : UInt16) (property : UInt8) (value : UInt16) (m : Machine) :
    (putProperty object property value).report m = (Effect.putProperty object property value).apply m := by
  unfold putProperty Effect.apply Machine.put?
  cases ho : m.objects with
  | ledger writes => simp [report_bind, ho]
  | table t =>
    cases hp : t.put m.memory object property value <;> simp [report_bind, ho, hp]

/-- **Performing an operation is applying its effect.** -/
theorem report_perform (op : Operation) (i : Instruction) (values : List UInt16) (m : Machine) :
    (perform op i values).report m = (Effect.of m op i values).apply m := by
  -- the families of operations that look at as many values; with fewer of them, both sides are the same fault
  cases op with
  | je =>
    rcases values with _ | ⟨a, others⟩
    · rfl
    · simp [perform, report_bind, report_branchIf, Effect.of, Operation.test?]
  | jz =>
    rcases values with _ | ⟨a, rest⟩
    · rfl
    · exact report_branchIf i _ m
  | jl | jg =>
    rcases values with _ | ⟨a, _ | ⟨b, rest⟩⟩
    · rfl
    · rfl
    · exact report_compare _ i a b _ m
  | or | and =>
    rcases values with _ | ⟨a, _ | ⟨b, rest⟩⟩
    · rfl
    · rfl
    · exact report_combine _ i a b _ m
  | add | sub | mul | div | mod =>
    rcases values with _ | ⟨a, _ | ⟨b, rest⟩⟩
    · rfl
    · rfl
    · exact report_calculate _ i a b _ m
  | store =>
    rcases values with _ | ⟨name, _ | ⟨value, rest⟩⟩
    · rfl
    · rfl
    · simp [perform, store, report_bind, report_storeNamed, Effect.of, Operation.test?, Effect.apply]
  | load =>
    rcases values with _ | ⟨name, rest⟩
    · rfl
    · exact report_load i name m
  | loadw =>
    rcases values with _ | ⟨array, _ | ⟨index, rest⟩⟩
    · rfl
    · rfl
    · exact report_loadWord i array index m
  | loadb =>
    rcases values with _ | ⟨array, _ | ⟨index, rest⟩⟩
    · rfl
    · rfl
    · exact report_loadByte i array index m
  | storew =>
    rcases values with _ | ⟨array, _ | ⟨index, _ | ⟨value, rest⟩⟩⟩
    · rfl
    · rfl
    · rfl
    · simp [perform, storeWord, report_bind, report_writeWord, Effect.of, Operation.test?, Effect.apply]
  | storeb =>
    rcases values with _ | ⟨array, _ | ⟨index, _ | ⟨value, rest⟩⟩⟩
    · rfl
    · rfl
    · rfl
    · simp [perform, storeByte, report_bind, report_writeByte, Effect.of, Operation.test?, Effect.apply]
  | putProp =>
    rcases values with _ | ⟨object, _ | ⟨property, _ | ⟨value, rest⟩⟩⟩
    · rfl
    · rfl
    · rfl
    · exact report_putProperty object (Word.low property) value m
  | push =>
    rcases values with _ | ⟨value, rest⟩
    · rfl
    · simp only [perform, report_bind, report_log, andThen_ok, List.nil_append]
      exact report_writeVariable .stack value m
  | pull =>
    rcases values with _ | ⟨name, rest⟩
    · rfl
    · exact report_pull name m
  | jump =>
    rcases values with _ | ⟨distance, rest⟩
    · rfl
    · rfl
  | call =>
    rcases values with _ | ⟨routine, arguments⟩
    · rfl
    · exact report_callRoutine routine arguments i.store m
  | ret =>
    rcases values with _ | ⟨value, rest⟩
    · rfl
    · exact report_returnValue value m
  | rtrue => exact report_returnValue 1 m
  | rfalse => exact report_returnValue 0 m
  | retPopped =>
    simp only [perform, report_bind, report_pop, report_returnValue]
    rfl
  | quit => rfl

end Action

end ZMachine
