import ZMachine.Proofs.Session
import ZMachine.Proofs.WellFormed

/-!
# The trace of a step

A step that gets to perform an operation reports that it has decoded an instruction.  If it succeeds, it reports after that
what has become of variables and frames: every change of a local is reported, and every change of memory that is not the
purpose of the operation itself.

* `CallStack.localAt`: the locals of all frames, by position;
* `Machine.StoredIn`: a value has been put into a variable, and nothing else has changed;
* `Machine.Reported`, `Machine.Performs.reported`: what an operation that succeeds reports, and what it has done;
* `Machine.Accounts`, `Machine.Traced`, `Machine.step_traced`: what the events of a step account for;
* `Session.trace_of_step`: what a recorder receives of any step of any run.
-/

namespace ZMachine

/-! ### The locals of all frames -/

namespace CallStack

variable {c c' : CallStack} {frame : Frame}

/-- The value of a local slot of the frame at a position, counted from the outermost one. -/
def localAt (c : CallStack) (k slot : Nat) : Option UInt16 :=
  c.frames[k]?.bind fun f => f.locals[slot]?

theorem localAt_with_current (c : CallStack) (frame : Frame) (k slot : Nat) :
    { c with current := frame }.localAt k slot =
      if k + 1 = c.depth then frame.locals[slot]? else c.localAt k slot := by
  unfold localAt depth
  rw [frames_eq, frames_eq]
  by_cases hk : k < c.callers.length
  · rw [if_neg (by omega), List.getElem?_append_left (by simpa using hk), List.getElem?_append_left (by simpa using hk)]
  · rw [List.getElem?_append_right (by simpa using hk), List.getElem?_append_right (by simpa using hk)]
    by_cases hlast : k = c.callers.length
    · subst hlast
      simp
    · rw [List.getElem?_eq_none (by simp; omega), List.getElem?_eq_none (by simp; omega), if_neg (by omega)]

theorem localAt_current (c : CallStack) (slot : Nat) : c.localAt c.callers.length slot = c.current.locals[slot]? := by
  have := c.localAt_with_current c.current c.callers.length slot
  rw [depth, if_pos rfl] at this
  exact this

theorem localAt_of_locals_eq (c : CallStack) (h : frame.locals = c.current.locals) (k slot : Nat) :
    { c with current := frame }.localAt k slot = c.localAt k slot := by
  rw [c.localAt_with_current]
  by_cases hk : k + 1 = c.depth
  · obtain rfl : k = c.callers.length := by
      unfold depth at hk
      omega
    rw [if_pos hk, h, localAt_current]
  · rw [if_neg hk]

theorem localAt_discard (c : CallStack) (n k slot : Nat) : (c.discard n).localAt k slot = c.localAt k slot :=
  c.localAt_of_locals_eq (show { c.current with stack := c.current.stack.drop n }.locals = _ from rfl) k slot

theorem localAt_push (h : c.push frame = .ok c') {k : Nat} (hk : k < c.depth) (slot : Nat) :
    c'.localAt k slot = c.localAt k slot := by
  unfold localAt
  rw [frames_push h, List.getElem?_append_left (by rw [length_frames]; exact hk)]

theorem localAt_pop (h : c.callers = c'.current :: c'.callers) {k : Nat} (hk : k < c'.depth) (slot : Nat) :
    c'.localAt k slot = c.localAt k slot := by
  unfold localAt
  rw [frames_pop h, List.getElem?_append_left (by rw [length_frames]; exact hk)]

theorem lt_depth_of_localAt {k slot : Nat} {value : UInt16} (h : c.localAt k slot = some value) : k < c.depth := by
  obtain ⟨f, hf, -⟩ := Option.bind_eq_some_iff.1 h
  rw [← length_frames]
  exact (List.getElem?_eq_some_iff.1 hf).1

end CallStack

/-! ### A value put into a variable -/

theorem Frame.getElem?_writeLocal {f f' : Frame} {slot : UInt8} {value : UInt16}
    (h : f.writeLocal slot value = .ok f') (k : Nat) :
    f'.locals[k]? = f.locals[k]? ∨ slot = UInt8.ofNat k ∧ f'.locals[k]? = some value := by
  obtain ⟨-, rfl⟩ := writeLocal_eq_ok_iff.1 h
  rw [Vector.getElem?_setIfInBounds]
  by_cases hk : slot.toNat = k
  · rw [if_pos hk]
    by_cases hlt : slot.toNat < localLimit
    · rw [if_pos hlt]
      refine .inr ⟨?_, rfl⟩
      rw [← hk, UInt8.ofNat_toNat]
    · rw [if_neg hlt, ← hk, Vector.getElem?_eq_none (Nat.not_lt.1 hlt)]
      exact .inl rfl
  · rw [if_neg hk]
    exact .inl rfl

theorem Frame.readLocal_writeLocal {f f' : Frame} {slot : UInt8} {value : UInt16} (hf : f.WellFormed)
    (h : f.writeLocal slot value = .ok f') : f'.readLocal slot = .ok value := by
  obtain ⟨hs, rfl⟩ := writeLocal_eq_ok_iff.1 h
  have hlt : slot.toNat < localLimit := by
    have : slot.toNat < f.declared.toNat := hs
    have := hf.declared_le
    omega
  unfold readLocal
  rw [if_pos hs]
  simp [Array.getD_eq_getD_getElem?, hlt]

theorem Memory.readWord_setWord {m : Memory} {address : Nat} {word : UInt16} (h : address + 1 < m.size) :
    (m.setWord address word).readWord address = .ok word := by
  refine readWord_eq_ok_iff.2 ⟨Word.high word, Word.low word, ?_, ?_, (Word.ofBytes_high_low word).symm⟩
  · rw [getElem?_setWord, if_neg (by omega), if_pos ⟨rfl, by omega⟩]
  · rw [getElem?_setWord, if_pos ⟨rfl, h⟩]

namespace Machine

variable {m m' m'' : Machine} {target : Variable} {value : UInt16}

/-- A value has been put into a variable: the variable shows it, and of all locals and all bytes of memory only those that
belong to the variable may have changed. -/
structure StoredIn (m : Machine) (target : Variable) (value : UInt16) (m' : Machine) : Prop where
  shows : m'.valueOf target = .ok value
  depth : m'.calls.depth = m.calls.depth
  locals : ∀ k slot, m'.calls.localAt k slot = m.calls.localAt k slot ∨
    k + 1 = m.calls.depth ∧ target = .localSlot (UInt8.ofNat slot) ∧ m'.calls.localAt k slot = some value
  memory : ∀ k, m'.memory.bytes[k]? = m.memory.bytes[k]? ∨
    ∃ index, target = .globalCell index ∧ (k = m.globalAddress index ∨ k = m.globalAddress index + 1)

/-- The current frame has another stack. -/
theorem storedIn_stack {frame : Frame} (hl : frame.locals = m.calls.current.locals) (hp : frame.peek = .ok value) :
    m.StoredIn .stack value (m.withCurrent frame) where
  shows := hp
  depth := rfl
  locals k slot := .inl (m.calls.localAt_of_locals_eq hl k slot)
  memory _ := .inl rfl

theorem storedIn_of_write? (hw : m.calls.WellFormed) (h : m.write? target value = .ok m') :
    m.StoredIn target value m' := by
  cases target with
  | stack =>
    obtain ⟨frame, hf, rfl⟩ := map_eq_ok_iff.1 h
    obtain ⟨-, rfl⟩ := Frame.push_eq_ok_iff.1 hf
    exact storedIn_stack rfl rfl
  | localSlot slot =>
    obtain ⟨frame, hf, rfl⟩ := map_eq_ok_iff.1 h
    refine ⟨Frame.readLocal_writeLocal hw.current hf, rfl, fun k s => ?_, fun _ => .inl rfl⟩
    show ({ m.calls with current := frame } : CallStack).localAt k s = _ ∨ _
    have hat := m.calls.localAt_with_current frame k s
    by_cases hk : k + 1 = m.calls.depth
    · obtain rfl : k = m.calls.callers.length := by
        unfold CallStack.depth at hk
        omega
      rw [if_pos hk] at hat
      rw [hat, CallStack.localAt_current]
      rcases Frame.getElem?_writeLocal hf s with hs | ⟨hs, hv⟩
      · exact .inl hs
      · exact .inr ⟨hk, by rw [hs], hat.trans hv⟩
    · rw [if_neg hk] at hat
      exact .inl hat
  | globalCell index =>
    obtain ⟨memory, hm, rfl⟩ := map_eq_ok_iff.1 h
    obtain ⟨hsize, -, rfl⟩ := Memory.writeWord_eq_ok_iff.1 hm
    refine ⟨Memory.readWord_setWord hsize, rfl, fun _ _ => .inl rfl, fun k => ?_⟩
    by_cases hk : k = m.globalAddress index ∨ k = m.globalAddress index + 1
    · exact .inr ⟨index, rfl, hk⟩
    · left
      show (m.memory.setWord (m.globalAddress index) value).bytes[k]? = _
      rw [Memory.getElem?_setWord, if_neg (by omega), if_neg (by omega)]

/-- Assigning differs from storing a result only on the stack. -/
theorem storedIn_of_assign? (hw : m.calls.WellFormed) (h : m.assign? target value = .ok m') :
    m.StoredIn target value m' := by
  cases target with
  | stack =>
    obtain ⟨frame, hf, rfl⟩ := map_eq_ok_iff.1 h
    obtain ⟨_, _, -, rfl⟩ := Frame.replaceTop_eq_ok_iff.1 hf
    exact storedIn_stack rfl rfl
  | localSlot slot => exact storedIn_of_write? hw (show m.write? (.localSlot slot) value = .ok m' from h)
  | globalCell index => exact storedIn_of_write? hw (show m.write? (.globalCell index) value = .ok m' from h)

/-- Values taken off the stack before make no difference. -/
theorem StoredIn.of_discard {n : Nat} (h : { m with calls := m.calls.discard n }.StoredIn target value m') :
    m.StoredIn target value m' := by
  refine ⟨h.shows, h.depth, fun k slot => ?_, h.memory⟩
  rw [← m.calls.localAt_discard n]
  exact h.locals k slot

/-! ### What an operation reports -/

/-- What an operation that succeeds reports, and what it has done to the machine. -/
inductive Reported (m : Machine) (op : Operation) : Machine → List Event → Prop
  | silent {m' : Machine} (locals : ∀ k slot, m'.calls.localAt k slot = m.calls.localAt k slot)
      (memory : m'.memory = m.memory) : Reported m op m' []
  | written {m' : Machine} (writes : op = .storew ∨ op = .storeb ∨ op = .putProp) (calls : m'.calls = m.calls)
      (memory : m'.memory = m.memory ∨ m.memory.Writes m'.memory) : Reported m op m' []
  | stored {m' : Machine} {target : Variable} {value : UInt16} (store : m.StoredIn target value m') :
      Reported m op m' [.stored target value]
  | entered {m' : Machine} {frame : Frame} (push : m.calls.push frame = .ok m'.calls) (memory : m'.memory = m.memory) :
      Reported m op m' [m'.entry]
  | left {m' : Machine} (value : UInt16) (caller : m.caller? = some m') :
      Reported m op m' [.left m'.calls.depth value m'.pc]
  | returned {caller m' : Machine} {target : Variable} {value : UInt16} (called : m.caller? = some caller)
      (store : caller.StoredIn target value m') :
      Reported m op m' [.stored target value, .left caller.calls.depth value caller.pc]

theorem caller_wellFormed (hw : m.calls.WellFormed) (h : m.caller? = some m') : m'.calls.WellFormed :=
  hw.of_pop (caller?_eq_some h).1

theorem reported_of_leave {op : Operation} {events : List Event} (hw : m.calls.WellFormed) (n : Nat)
    (h : { m with calls := m.calls.discard n }.leave value = ⟨.ok (), m', events⟩) : m.Reported op m' events := by
  unfold leave at h
  split at h
  · cases h
  · next hc _ =>
    cases h
    exact .left value hc
  · next caller number hc _ =>
    -- the value is stored by the caller, so that a local named by the call is one of its own
    have hcaller : m.caller? = some caller := hc
    obtain ⟨hstore, rfl⟩ := Report.attempt_eq_ok h
    exact .returned hcaller (storedIn_of_write? (caller_wellFormed hw hcaller) hstore)

/-- **What an operation that succeeds reports.** -/
theorem Performs.reported {i : Instruction} {op : Operation} {values : List UInt16} {events : List Event}
    (h : m.Performs i op values m') (hw : m'.calls.WellFormed)
    (he : (Effect.of m' op i values).apply m' = ⟨.ok (), m'', events⟩) : m'.Reported op m'' events := by
  -- which operation an effect comes from must be known before the effect is taken apart
  have ho := Effect.origin_of m' i h.length_values
  generalize Effect.of m' op i values = e at he ho
  cases e with
  | nothing | jump pc =>
    cases he
    exact .silent (fun _ _ => rfl) rfl
  | fail fault => cases he
  | push value =>
    obtain ⟨hstore, rfl⟩ := Report.attempt_eq_ok he
    obtain ⟨frame, hf, rfl⟩ := map_eq_ok_iff.1 hstore
    obtain ⟨-, rfl⟩ := Frame.push_eq_ok_iff.1 hf
    exact .silent (m'.calls.localAt_of_locals_eq rfl) rfl
  | store target value =>
    obtain ⟨hstore, rfl⟩ := Report.attempt_eq_ok he
    exact .stored (storedIn_of_write? hw hstore)
  | assign target value =>
    obtain ⟨hstore, rfl⟩ := Report.attempt_eq_ok he
    exact .stored (storedIn_of_assign? hw hstore)
  | pull target =>
    rcases m'.pop_cases with ⟨hp, -⟩ | ⟨value, rest, -, hp⟩
    · simp [Effect.apply, hp] at he
    · simp only [Effect.apply, hp, Report.andThen_ok, List.nil_append] at he
      obtain ⟨hstore, rfl⟩ := Report.attempt_eq_ok he
      exact .stored (storedIn_of_assign? (hw.discard 1) hstore).of_discard
  | writeByte address byte =>
    obtain ⟨hchange, rfl⟩ := Report.attempt_eq_ok he
    obtain ⟨memory, hm, rfl⟩ := map_eq_ok_iff.1 hchange
    exact .written (.inr (.inl ho)) rfl (.inr (.byte hm))
  | writeWord address word =>
    obtain ⟨hchange, rfl⟩ := Report.attempt_eq_ok he
    obtain ⟨memory, hm, rfl⟩ := map_eq_ok_iff.1 hchange
    exact .written (.inl ho) rfl (.inr (.word hm))
  | putProperty object property value =>
    obtain ⟨hput, rfl⟩ := Report.attempt_eq_ok he
    refine .written (.inr (.inr ho)) (calls_of_put? hput) ?_
    unfold put? at hput
    split at hput
    · obtain ⟨memory, hm, rfl⟩ := map_eq_ok_iff.1 hput
      exact .inr (PropertyTable.writes_of_put hm)
    · cases hput
      exact .inl rfl
  | enter routine arguments returnStore =>
    have hm := enter_eq_ok he
    obtain ⟨frame, start, -, hpush, hm''⟩ := enter?_eq_ok hm
    obtain rfl : events = [m''.entry] := by
      have : m'.enter routine arguments returnStore = ⟨.ok (), m'', [m''.entry]⟩ := by rw [enter, hm]
      exact (congrArg Report.events (this.symm.trans he)).symm
    exact .entered hpush (by rw [hm''])
  | leave value => exact reported_of_leave hw 0 he
  | leavePopped =>
    rcases m'.pop_cases with ⟨hp, -⟩ | ⟨value, rest, -, hp⟩
    · simp [Effect.apply, hp] at he
    · simp only [Effect.apply, hp, Report.andThen_ok, List.nil_append] at he
      exact reported_of_leave hw 1 he

/-- An operation that fails reports nothing. -/
theorem events_of_leave_error {fault : Fault} {events : List Event}
    (h : m.leave value = ⟨.error fault, m', events⟩) : events = [] := by
  unfold leave at h
  split at h
  · cases h
    rfl
  · cases h
  · exact (Report.attempt_eq_error h).2.2

theorem events_of_apply_error {e : Effect} {fault : Fault} {events : List Event}
    (h : e.apply m = ⟨.error fault, m', events⟩) : events = [] := by
  cases e with
  | nothing | jump pc => cases h
  | fail fault' =>
    cases h
    rfl
  | push value | store target value | assign target value | writeByte address byte | writeWord address word
  | putProperty object property value => exact (Report.attempt_eq_error h).2.2
  | enter routine arguments returnStore =>
    have h : m.enter routine arguments returnStore = ⟨.error fault, m', events⟩ := h
    unfold enter at h
    split at h
    · cases h
    · cases h
      rfl
  | leave value => exact events_of_leave_error h
  | pull target =>
    rcases m.pop_cases with ⟨hp, -⟩ | ⟨value, rest, -, hp⟩
    · simp only [Effect.apply, hp, Report.andThen_error] at h
      cases h
      rfl
    · simp only [Effect.apply, hp, Report.andThen_ok, List.nil_append] at h
      exact (Report.attempt_eq_error h).2.2
  | leavePopped =>
    rcases m.pop_cases with ⟨hp, -⟩ | ⟨value, rest, -, hp⟩
    · simp only [Effect.apply, hp, Report.andThen_error] at h
      cases h
      rfl
    · simp only [Effect.apply, hp, Report.andThen_ok, List.nil_append] at h
      exact events_of_leave_error h

end Machine

/-! ### The account that events give -/

/-- What can follow the report of a decoded instruction. -/
inductive Event.Sequel : List Event → Prop
  | nothing : Sequel []
  | stored (target : Variable) (value : UInt16) : Sequel [.stored target value]
  | entered (routine returnPc : UInt32) (depth : Nat) (locals : List UInt16) :
      Sequel [.entered routine returnPc depth locals]
  | left (depth : Nat) (value : UInt16) (returnPc : UInt32) : Sequel [.left depth value returnPc]
  | returned (target : Variable) (stored : UInt16) (depth : Nat) (value : UInt16) (returnPc : UInt32) :
      Sequel [.stored target stored, .left depth value returnPc]

theorem Memory.Writes.changed {m m' : Memory} (h : m.Writes m') :
    ∃ address, ∀ k, m'.bytes[k]? ≠ m.bytes[k]? → k = address ∨ k = address + 1 := by
  cases h with
  | @byte address byte _ h =>
    obtain ⟨-, -, rfl⟩ := writeByte_eq_ok_iff.1 h
    refine ⟨address, fun k hk => .inl ?_⟩
    by_cases hne : k = address
    · exact hne
    · rw [getElem?_setByte, if_neg (fun h => hne h.1)] at hk
      exact absurd rfl hk
  | @word address word _ h =>
    obtain ⟨-, -, rfl⟩ := writeWord_eq_ok_iff.1 h
    refine ⟨address, fun k hk => ?_⟩
    by_cases hne : k = address ∨ k = address + 1
    · exact hne
    · rw [getElem?_setWord, if_neg (by omega), if_neg (by omega)] at hk
      exact absurd rfl hk

namespace Machine

variable {m m' : Machine} {op : Operation} {events : List Event}

/-- The events that follow the report of a decoded instruction account for what the instruction has done. -/
structure Accounts (m : Machine) (op : Operation) (m' : Machine) (events : List Event) : Prop where
  sequel : Event.Sequel events
  /-- A variable that was reported as set shows the value it was set to. -/
  stored : ∀ target value, .stored target value ∈ events → ((Action.loadVariable target).run m').result = .ok value
  /-- A local that has changed, in a frame that was there before, belongs to the current frame, and it was reported. -/
  locals : ∀ k slot old new, m.calls.localAt k slot = some old → m'.calls.localAt k slot = some new → new ≠ old →
    k + 1 = m'.calls.depth ∧ .stored (.localSlot (UInt8.ofNat slot)) new ∈ events
  /-- A byte that has changed belongs to a global that was reported, or it was changed by one of the operations that write
  to memory. -/
  memory : ∀ k, m'.memory.bytes[k]? ≠ m.memory.bytes[k]? →
    (∃ index value, .stored (.globalCell index) value ∈ events ∧
      (k = m.globalAddress index ∨ k = m.globalAddress index + 1)) ∨ op = .storew ∨ op = .storeb ∨ op = .putProp
  adjacent : ∃ address, ∀ k, m'.memory.bytes[k]? ≠ m.memory.bytes[k]? → k = address ∨ k = address + 1

theorem result_loadVariable (target : Variable) (m : Machine) :
    ((Action.loadVariable target).run m).result = m.valueOf target :=
  congrArg Report.result (Action.report_loadVariable target m)

namespace StoredIn

variable {target : Variable} {value : UInt16}

theorem locals_changed (h : m.StoredIn target value m') {k slot : Nat} {old new : UInt16}
    (ho : m.calls.localAt k slot = some old) (hn : m'.calls.localAt k slot = some new) (hne : new ≠ old) :
    k + 1 = m'.calls.depth ∧ target = .localSlot (UInt8.ofNat slot) ∧ new = value := by
  rcases h.locals k slot with hsame | ⟨hk, ht, hv⟩
  · rw [hsame, ho] at hn
    exact absurd (Option.some.inj hn).symm hne
  · rw [hv] at hn
    exact ⟨by rw [h.depth]; exact hk, ht, (Option.some.inj hn).symm⟩

theorem memory_changed (h : m.StoredIn target value m') {k : Nat}
    (hk : m'.memory.bytes[k]? ≠ m.memory.bytes[k]?) :
    ∃ index, target = .globalCell index ∧ (k = m.globalAddress index ∨ k = m.globalAddress index + 1) := by
  rcases h.memory k with hsame | hcell
  · exact absurd hsame hk
  · exact hcell

theorem adjacent (h : m.StoredIn target value m') :
    ∃ address, ∀ k, m'.memory.bytes[k]? ≠ m.memory.bytes[k]? → k = address ∨ k = address + 1 := by
  cases target with
  | globalCell index =>
    refine ⟨m.globalAddress index, fun k hk => ?_⟩
    obtain ⟨index', ht, hk'⟩ := h.memory_changed hk
    cases ht
    exact hk'
  | stack | localSlot slot =>
    refine ⟨0, fun k hk => ?_⟩
    obtain ⟨index', ht, -⟩ := h.memory_changed hk
    cases ht

end StoredIn

/-- The events of an operation that succeeds account for what it has done. -/
theorem Reported.accounts (h : m.Reported op m' events) : m.Accounts op m' events := by
  cases h with
  | silent locals memory =>
    refine ⟨.nothing, nofun, ?_, ?_, 0, ?_⟩
    · intro k slot old new ho hn hne
      rw [locals k slot, ho] at hn
      exact absurd (Option.some.inj hn).symm hne
    · intro k hk
      exact absurd (by rw [memory]) hk
    · intro k hk
      exact absurd (by rw [memory]) hk
  | written writes calls memory =>
    refine ⟨.nothing, nofun, ?_, fun _ _ => .inr writes, ?_⟩
    · intro k slot old new ho hn hne
      rw [calls, ho] at hn
      exact absurd (Option.some.inj hn).symm hne
    · rcases memory with hsame | hw
      · exact ⟨0, fun k hk => absurd (by rw [hsame]) hk⟩
      · exact hw.changed
  | @stored _ target value store =>
    refine ⟨.stored target value, ?_, ?_, ?_, store.adjacent⟩
    · intro target' value' hmem
      cases List.mem_singleton.1 hmem
      rw [result_loadVariable]
      exact store.shows
    · intro k slot old new ho hn hne
      obtain ⟨hk, rfl, rfl⟩ := store.locals_changed ho hn hne
      exact ⟨hk, List.mem_singleton.2 rfl⟩
    · intro k hk
      obtain ⟨index, rfl, hcell⟩ := store.memory_changed hk
      exact .inl ⟨index, value, List.mem_singleton.2 rfl, hcell⟩
  | entered push memory =>
    refine ⟨.entered _ _ _ _, ?_, ?_, ?_, 0, ?_⟩
    · intro target value hmem
      cases List.mem_singleton.1 hmem
    · intro k slot old new ho hn hne
      rw [CallStack.localAt_push push (CallStack.lt_depth_of_localAt ho), ho] at hn
      exact absurd (Option.some.inj hn).symm hne
    · intro k hk
      exact absurd (by rw [memory]) hk
    · intro k hk
      exact absurd (by rw [memory]) hk
  | left value caller =>
    obtain ⟨hpop, hm'⟩ := caller?_eq_some caller
    have hmemory : m'.memory = m.memory := by rw [hm']
    refine ⟨.left _ _ _, ?_, ?_, ?_, 0, ?_⟩
    · intro target value hmem
      cases List.mem_singleton.1 hmem
    · intro k slot old new ho hn hne
      rw [CallStack.localAt_pop hpop (CallStack.lt_depth_of_localAt hn), ho] at hn
      exact absurd (Option.some.inj hn).symm hne
    · intro k hk
      exact absurd (by rw [hmemory]) hk
    · intro k hk
      exact absurd (by rw [hmemory]) hk
  | @returned caller _ target value called store =>
    obtain ⟨hpop, hcaller⟩ := caller?_eq_some called
    have hmemory : caller.memory = m.memory := by rw [hcaller]
    have hglobal : ∀ index, caller.globalAddress index = m.globalAddress index := by
      intro index
      rw [hcaller]
      rfl
    have hadjacent := store.adjacent
    rw [hmemory] at hadjacent
    refine ⟨.returned target value _ _ _, ?_, ?_, ?_, hadjacent⟩
    · intro target' value' hmem
      rcases List.mem_cons.1 hmem with hstored | hleft
      · cases hstored
        rw [result_loadVariable]
        exact store.shows
      · cases List.mem_singleton.1 hleft
    · intro k slot old new ho hn hne
      have hdepth : k < caller.calls.depth := by
        rw [← store.depth]
        exact CallStack.lt_depth_of_localAt hn
      rw [← CallStack.localAt_pop hpop hdepth] at ho
      obtain ⟨hk, rfl, rfl⟩ := store.locals_changed ho hn hne
      exact ⟨hk, List.mem_cons_self⟩
    · intro k hk
      rw [← hmemory] at hk
      obtain ⟨index, rfl, hcell⟩ := store.memory_changed hk
      rw [hglobal] at hcell
      exact .inl ⟨index, value, List.mem_cons_self, hcell⟩

/-- The account holds of the whole step: reading operands changes no local and no byte. -/
theorem Performs.accounts {m₁ : Machine} {i : Instruction} {values : List UInt16} (h : m.Performs i op values m₁)
    (ha : m₁.Accounts op m' events) : m.Accounts op m' events := by
  obtain ⟨n, -, rfl⟩ := h.machine_eq
  refine ⟨ha.sequel, ha.stored, fun k slot old new ho => ?_, ha.memory, ha.adjacent⟩
  rw [← m.calls.localAt_discard n] at ho
  exact ha.locals k slot old new ho

theorem Accounts.with_executed (h : m.Accounts op m' events) (executed : Nat) :
    m.Accounts op { m' with executed } events := by
  refine ⟨h.sequel, fun target value hmem => ?_, h.locals, h.memory, h.adjacent⟩
  have hshows := h.stored target value hmem
  rw [result_loadVariable] at hshows ⊢
  exact hshows

/-- What the events of a step say of it. -/
structure Traced (m : Machine) (result : Except Failure Progress) (m' : Machine) (events : List Event) : Prop where
  /-- A step that fails reports nothing, or that it has decoded the instruction. -/
  failed : ∀ failure, result = .error failure →
    events = [] ∨ ∃ i op values m₁, m.Performs i op values m₁ ∧ events = [.decoded i op values]
  /-- A step that succeeds reports that it has decoded the instruction, and then what has become of the machine. -/
  succeeded : ∀ progress, result = .ok progress →
    ∃ i op values m₁ rest, m.Performs i op values m₁ ∧ events = .decoded i op values :: rest ∧ m.Accounts op m' rest

theorem step_traced (hw : m.calls.WellFormed) : m.Traced m.step.result m.step.machine m.step.events := by
  show m.Traced m.step.report.result m.step.report.machine m.step.report.events
  rcases m.step_cases with ⟨fault, -, hs⟩ | ⟨fault, n, -, -, hs⟩ | ⟨i, op, values, m₁, hp⟩
  · rw [hs]
    exact ⟨fun _ _ => .inl rfl, nofun⟩
  · rw [hs]
    exact ⟨fun _ _ => .inl rfl, nofun⟩
  · have hw₁ : m₁.calls.WellFormed := by
      obtain ⟨n, -, rfl⟩ := hp.machine_eq
      exact hw.discard n
    rcases ha : (Effect.of m₁ op i values).apply m₁ with ⟨fault | ⟨⟩, m₂, events⟩
    · rw [hp.step_error ha, events_of_apply_error ha]
      exact ⟨fun _ _ => .inr ⟨i, op, values, m₁, hp, rfl⟩, nofun⟩
    · rw [hp.step_ok ha]
      have hacc := hp.accounts (hp.reported hw₁ ha).accounts
      exact ⟨nofun, fun _ _ => ⟨i, op, values, m₁, events, hp, rfl, hacc.with_executed _⟩⟩

end Machine

/-! ### What a recorder receives -/

namespace Session

variable {s : Session}

/-- **The trace of a step is well formed, faithful and complete.**  A recorder that watches any step of any run receives
nothing or the decoded instruction if the step fails; if it succeeds, the decoded instruction and after it at most a
store, an entry, or a return with the store of its value.  A variable that was reported as stored shows its value.  No
local of a frame that remains has changed unless the trace says so, and no byte of memory either, except by the operations
whose purpose it is. -/
theorem trace_of_step {bytes : Array UInt8} {m : Machine} {n : Nat} (hload : Machine.load bytes = .ok m)
    (hs : s.machine = m.after n) (hr : s.observer = .recorder) :
    ∃ events : List Event, s.step.2.recorded = s.recorded ++ events ∧ s.machine.Traced s.step.1 s.step.2.machine events := by
  have hw : s.machine.calls.WellFormed := by
    rw [hs]
    refine Machine.calls_wellFormed_invariant.after ?_ n
    obtain ⟨hm, -⟩ := Machine.load_spec hload
    rw [hm]
    exact CallStack.wellFormed_start
  obtain ⟨hresult, hmachine⟩ := s.machine_step
  refine ⟨s.machine.step.events, step_recorded hr, ?_⟩
  rw [hresult, hmachine]
  exact Machine.step_traced hw

/-- A story whose routine returns its local to a global. -/
def echo : Array UInt8 :=
  #[3, 0, 0, 1, 0, 34, 0, 34, 0, 34, 0, 34, 0, 16, 0, 34, 0, 0, 48, 48, 48, 48, 48, 48, 0, 34, 0, 0, 0, 0, 0, 0, 0, 0,
    0xE0, 0x3F, 0x00, 0x14, 0x10, 0xBA, 0x01, 0x00, 0x05, 0xAB, 0x01]

theorem echo_trace :
    ∃ (m : Machine) (s : Session), Machine.load echo = .ok m ∧ s = ⟨m.after 1, .recorder, #[], none, #[]⟩ ∧
      s.step.1 = .ok .running ∧ s.step.2.recorded.toList.drop 1 = [.stored (.globalCell 0) 5, .left 1 5 39] ∧
      ∃ events : List Event, s.step.2.recorded = s.recorded ++ events ∧ s.machine.Traced s.step.1 s.step.2.machine events :=
  ⟨_, _, rfl, rfl, rfl, rfl, trace_of_step (show Machine.load echo = _ from rfl) rfl rfl⟩

end Session

end ZMachine
