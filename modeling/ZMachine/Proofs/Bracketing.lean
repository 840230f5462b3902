import ZMachine.Proofs.Memory
import ZMachine.Proofs.Origin

/-!
# Calls and returns

A call brackets the steps up to its return.  While the called routine runs, with whatever it calls in turn, the frames of
the caller stay as the call left them; when it returns, execution goes on after the call, and the returned value is written
to the variable that the call names.

* `CallStack.Within`: a change inside the current frame;
* `Machine.Performs.moves`: how an instruction that succeeds moves between frames;
* `CallStack.InCall`: a call is still running, the frames of its caller below it;
* `Machine.step_of_inCall`: one step of a routine that is still running, or its return;
* `Machine.call_isolates_caller`: the whole bracket.
-/

namespace ZMachine

/-! ### Moves between frames -/

namespace CallStack

/-- A change inside the current frame. -/
structure Within (c c' : CallStack) : Prop where
  callers : c'.callers = c.callers
  same : c.current.SameCall c'.current

variable {c c' c'' : CallStack}

theorem Within.refl (c : CallStack) : c.Within c :=
  ⟨rfl, .refl _⟩

theorem Within.trans (h : c.Within c') (h' : c'.Within c'') : c.Within c'' :=
  ⟨h'.callers.trans h.callers, h.same.trans h'.same⟩

theorem Within.depth_eq (h : c.Within c') : c'.depth = c.depth := by
  rw [depth, h.callers, depth]

theorem within_discard (c : CallStack) (n : Nat) : c.Within (c.discard n) :=
  ⟨rfl, sameCall_discard c n⟩

end CallStack

namespace Machine

variable {m m' m'' : Machine} {value : UInt16}

theorem within_of_sets (h : m.Sets value m') : m.calls.Within m'.calls := by
  cases h with
  | push hf => exact ⟨rfl, Frame.sameCall_of_push hf⟩
  | replaceTop hf => exact ⟨rfl, Frame.sameCall_of_replaceTop hf⟩
  | writeLocal hf => exact ⟨rfl, Frame.sameCall_of_writeLocal hf⟩
  | writeGlobal _ => exact .refl _

theorem Performs.within {i : Instruction} {op : Operation} {values : List UInt16} (h : m.Performs i op values m') :
    m.calls.Within m'.calls := by
  obtain ⟨n, -, rfl⟩ := h.machine_eq
  exact CallStack.within_discard m.calls n

/-- **How an instruction that succeeds moves between frames.**  It stays in the current one, calls a routine, or returns
from the current one. -/
theorem Performs.moves {i : Instruction} {op : Operation} {values : List UInt16} {events : List Event}
    (h : m.Performs i op values m') (he : (Effect.of m' op i values).apply m' = ⟨.ok (), m'', events⟩) :
    m'.calls.Within m''.calls ∨
      (∃ packed arguments, op = .call ∧ packed ≠ 0 ∧ values = packed :: arguments ∧
        m'.enter? (m'.unpack packed) arguments i.store = .ok m'') ∨
      ∃ value, Returns m' i op values value := by
  have ho := Effect.origin_of m' i h.length_values
  generalize Effect.of m' op i values = e at he ho
  cases e with
  | nothing =>
    cases he
    exact .inl (.refl _)
  | fail fault => cases he
  | jump pc =>
    cases he
    exact .inl ⟨rfl, .refl _⟩
  | push value | store target value =>
    obtain ⟨hw, -⟩ := Report.attempt_eq_ok he
    exact .inl (within_of_sets (sets_of_write? hw))
  | assign target value =>
    obtain ⟨hw, -⟩ := Report.attempt_eq_ok he
    exact .inl (within_of_sets (sets_of_assign? hw))
  | pull target =>
    left
    rcases m'.pop_cases with ⟨hp, -⟩ | ⟨value, rest, -, hp⟩
    · simp [Effect.apply, hp] at he
    · simp only [Effect.apply, hp, Report.andThen_ok, List.nil_append] at he
      obtain ⟨hw, -⟩ := Report.attempt_eq_ok he
      exact (CallStack.within_discard m'.calls 1).trans (within_of_sets (sets_of_assign? hw))
  | writeByte address byte | writeWord address word =>
    obtain ⟨hw, -⟩ := Report.attempt_eq_ok he
    obtain ⟨memory, -, rfl⟩ := map_eq_ok_iff.1 hw
    exact .inl (.refl _)
  | putProperty object property value =>
    obtain ⟨hp, -⟩ := Report.attempt_eq_ok he
    left
    rw [calls_of_put? hp]
    exact .refl _
  | enter routine arguments returnStore =>
    obtain ⟨hop, rfl, packed, hne, hvalues, rfl⟩ := ho
    exact .inr (.inl ⟨packed, arguments, hop, hne, hvalues, enter_eq_ok he⟩)
  | leave value => exact .inr (.inr ⟨value, ho⟩)
  | leavePopped =>
    rcases m'.pop_cases with ⟨hp, -⟩ | ⟨value, rest, hs, hp⟩
    · simp [Effect.apply, hp] at he
    · cases (ho : op = .retPopped)
      exact .inr (.inr ⟨value, .retPopped values hs⟩)

end Machine

/-! ### A call that is still running -/

namespace CallStack

variable {base c c' : CallStack} {entry frame : Frame}

/-- The call that entered a frame from a call stack is still running: a state of that frame stands on the very frames it
was called from. -/
def InCall (base : CallStack) (entry : Frame) (c : CallStack) : Prop :=
  ∃ above callee, entry.SameCall callee ∧ c.current :: c.callers = above ++ callee :: base.current :: base.callers

theorem inCall_of_push (h : base.push entry = .ok c) : InCall base entry c := by
  obtain ⟨-, rfl⟩ := push_eq_ok_iff.1 h
  exact ⟨[], entry, .refl entry, rfl⟩

namespace InCall

theorem depth_lt (h : InCall base entry c) : base.depth < c.depth := by
  obtain ⟨above, callee, -, hc⟩ := h
  have := congrArg List.length hc
  simp only [List.length_append, List.length_cons] at this
  unfold depth
  omega

/-- The frames of the caller, at the bottom, are what they were. -/
theorem take_frames (h : InCall base entry c) : c.frames.take base.depth = base.frames := by
  obtain ⟨above, callee, -, hc⟩ := h
  have hframes : c.frames = base.frames ++ (callee :: above.reverse) := by
    rw [frames, hc, frames]
    simp
  rw [hframes, ← length_frames base, List.take_left]

theorem within (h : InCall base entry c) (hw : c.Within c') : InCall base entry c' := by
  obtain ⟨above, callee, hs, hc⟩ := h
  rcases above with _ | ⟨top, above⟩
  · rw [List.nil_append, List.cons.injEq] at hc
    obtain ⟨rfl, hcallers⟩ := hc
    exact ⟨[], c'.current, hs.trans hw.same, by rw [hw.callers, hcallers]; rfl⟩
  · rw [List.cons_append, List.cons.injEq] at hc
    obtain ⟨rfl, hcallers⟩ := hc
    exact ⟨c'.current :: above, callee, hs, by rw [hw.callers, hcallers]; rfl⟩

theorem push (h : InCall base entry c) (hp : c.push frame = .ok c') : InCall base entry c' := by
  obtain ⟨above, callee, hs, hc⟩ := h
  obtain ⟨-, rfl⟩ := push_eq_ok_iff.1 hp
  exact ⟨frame :: above, callee, hs, by rw [hc]; rfl⟩

/-- A return ends the call, if it is from the called routine itself. -/
theorem pop (h : InCall base entry c) (hp : c.callers = c'.current :: c'.callers) :
    InCall base entry c' ∨ c' = base ∧ entry.SameCall c.current := by
  obtain ⟨above, callee, hs, hc⟩ := h
  rcases above with _ | ⟨top, above⟩
  · right
    rw [List.nil_append, List.cons.injEq, hp, List.cons.injEq] at hc
    obtain ⟨rfl, hcurrent, hcallers⟩ := hc
    obtain ⟨current, callers⟩ := c'
    cases hcurrent
    cases hcallers
    exact ⟨rfl, hs⟩
  · left
    rw [List.cons_append, List.cons.injEq, hp] at hc
    exact ⟨above, callee, hs, hc.2⟩

end InCall

end CallStack

namespace Machine

variable {m : Machine} {base : CallStack} {entry : Frame} {number : UInt8}

/-- The machine back in the frames that a call was made from. -/
def backIn (m : Machine) (calls : CallStack) (pc : UInt32) : Machine :=
  { m with calls, pc }

/-- A step returns from a routine: a value is written to the variable with a number, in the frames of the caller. -/
def ReturnsTo (m : Machine) (base : CallStack) (pc : UInt32) (number : UInt8) : Prop :=
  ∃ i op values m₁ value m₂, m.Performs i op values m₁ ∧ Returns m₁ i op values value ∧
    (m.backIn base pc).write? (.ofNumber number) value = .ok m₂ ∧
    m.step.machine = { m₂ with executed := m₂.executed + 1 }

theorem ReturnsTo.depth_eq {pc : UInt32} (h : m.ReturnsTo base pc number) :
    m.step.machine.calls.depth = base.depth := by
  obtain ⟨i, op, values, m₁, value, m₂, -, -, hw, hm⟩ := h
  rw [hm]
  exact (within_of_sets (sets_of_write? hw)).depth_eq

/-- **One step of a routine that is still running.**  Either the call is still running after it, or the step has returned
from the called routine. -/
theorem step_of_inCall (h : base.InCall entry m.calls) (hstore : entry.returnStore = some number)
    (hok : m.step.result.isOk) :
    base.InCall entry m.step.machine.calls ∨ m.ReturnsTo base entry.returnPc number := by
  obtain ⟨i, op, values, m₁, hp⟩ := performs_of_isOk hok
  obtain ⟨m₂, events, ha, hstep⟩ := hp.apply_of_isOk hok
  have h₁ : base.InCall entry m₁.calls := h.within hp.within
  rcases hp.moves ha with hw | ⟨packed, arguments, -, -, -, hm⟩ | ⟨value, hr⟩
  · left
    rw [hstep]
    exact h₁.within hw
  · left
    rw [hstep]
    obtain ⟨frame, start, -, hpush, -⟩ := enter?_eq_ok hm
    exact h₁.push hpush
  · obtain ⟨n, -, happly⟩ := hr.apply_eq
    rw [happly] at ha
    obtain ⟨caller, hc, hwrite⟩ := leave_eq_ok ha
    obtain ⟨hcallers, hcaller⟩ := caller?_eq_some hc
    rcases (h₁.within (CallStack.within_discard m₁.calls n)).pop hcallers with hin | ⟨hbase, hsame⟩
    · -- the return is from a routine further in
      left
      rw [hstep]
      rcases hwrite with ⟨-, rfl⟩ | ⟨number', -, hw⟩
      · exact hin
      · have hwithin := within_of_sets (sets_of_write? hw)
        exact hin.within hwithin
    · right
      have hm : caller = m.backIn base entry.returnPc := by
        obtain ⟨k, -, rfl⟩ := hp.machine_eq
        rw [hcaller, hbase, hsame.returnPc]
        rfl
      have hreturn : (m₁.calls.discard n).current.returnStore = some number := hsame.returnStore.trans hstore
      rcases hwrite with ⟨hnone, -⟩ | ⟨number', hnumber, hw⟩
      · cases hreturn.symm.trans hnone
      · cases hreturn.symm.trans hnumber
        rw [hm] at hw
        exact ⟨i, op, values, m₁, value, m₂, hp, hr, hw, hstep⟩

/-- As long as the depth is more than that of the caller, the call is still running. -/
theorem inCall_after {n : Nat} (h : base.InCall entry (m.after 1).calls) (hstore : entry.returnStore = some number)
    (hok : ∀ k, k ≤ n → (m.after k).step.result.isOk)
    (hdeep : ∀ k, k ≤ n → 1 ≤ k → base.depth < (m.after k).calls.depth) {k : Nat} (hk : k + 1 ≤ n) :
    base.InCall entry (m.after (k + 1)).calls := by
  induction k with
  | zero => exact h
  | succ k ih =>
    rcases step_of_inCall (ih (by omega)) hstore (hok (k + 1) (by omega)) with hin | hreturn
    · exact hin
    · have hlt : base.depth < (m.after (k + 1)).step.machine.calls.depth := hdeep (k + 2) hk (by omega)
      have heq := hreturn.depth_eq
      omega

/-- The step of a call enters the routine: its frame, on top of those of the caller, will be left for the instruction after
the call. -/
theorem inCall_of_call {caller : Machine} {call : Instruction} {packed : UInt16} {arguments : List UInt16}
    (hcall : m.Performs call .call (packed :: arguments) caller) (hpacked : packed ≠ 0) (hok : m.step.result.isOk) :
    ∃ entry, caller.calls.InCall entry m.step.machine.calls ∧ entry.returnPc = call.nextPc ∧
      entry.returnStore = call.store ∧ m.step.machine.calls.depth = m.calls.depth + 1 := by
  obtain ⟨m₂, events, ha, hstep⟩ := hcall.apply_of_isOk hok
  rw [Effect.of_call caller call hpacked] at ha
  obtain ⟨frame, start, hf, hpush, -⟩ := enter?_eq_ok (enter_eq_ok ha)
  obtain ⟨-, hreturn, hstore⟩ := sameCall_of_frameAt hf
  have hpc : caller.pc = call.nextPc := by
    obtain ⟨n, -, rfl⟩ := hcall.machine_eq
    rfl
  have hdepth : m₂.calls.depth = caller.calls.depth + 1 := by
    obtain ⟨-, hc⟩ := CallStack.push_eq_ok_iff.1 hpush
    rw [hc]
    rfl
  rw [hcall.depth_eq] at hdepth
  rw [hstep]
  exact ⟨frame, CallStack.inCall_of_push hpush, hreturn.trans hpc, hstore, hdepth⟩

/-! ### The returned value -/

/-- What writing a value to the variable with a number does to a machine: 0 pushes it, 1 to 15 set a local of the current
frame, and all others set the two bytes of a global. -/
structure Receives (m : Machine) (number : UInt8) (value : UInt16) (m' : Machine) : Prop where
  onStack : number = 0 → m'.memory = m.memory ∧
    m'.calls = { m.calls with current.stack := value :: m.calls.current.stack }
  inLocal : 1 ≤ number → number ≤ 15 → m'.memory = m.memory ∧ number ≤ m.calls.current.declared ∧
    m'.calls = { m.calls with current.locals := m.calls.current.locals.setIfInBounds (number.toNat - 1) value }
  inGlobal : 16 ≤ number → m'.calls = m.calls ∧
    m'.memory.bytes[m.globalAddress (number - 16)]? = some (Word.high value) ∧
    m'.memory.bytes[m.globalAddress (number - 16) + 1]? = some (Word.low value) ∧
    ∀ k, k ≠ m.globalAddress (number - 16) → k ≠ m.globalAddress (number - 16) + 1 →
      m'.memory.bytes[k]? = m.memory.bytes[k]?

theorem pc_of_write? {m m' : Machine} {target : Variable} {value : UInt16} (h : m.write? target value = .ok m') :
    m'.pc = m.pc := by
  cases sets_of_write? h <;> rfl

theorem ofNumber_cases (number : UInt8) :
    (number = 0 ∧ Variable.ofNumber number = .stack) ∨
      (1 ≤ number ∧ number ≤ 15 ∧ Variable.ofNumber number = .localSlot (number - 1)) ∨
      (16 ≤ number ∧ Variable.ofNumber number = .globalCell (number - 16)) := by
  unfold Variable.ofNumber
  by_cases h0 : number = 0
  · exact .inl ⟨h0, if_pos h0⟩
  · have hpos : number.toNat ≠ 0 := fun h => h0 (UInt8.toNat_inj.1 h)
    right
    rw [if_neg h0]
    by_cases h16 : number < 16
    · have hlt : number.toNat < 16 := h16
      refine .inl ⟨?_, ?_, if_pos h16⟩
      · show 1 ≤ number.toNat
        omega
      · show number.toNat ≤ 15
        omega
    · exact .inr ⟨UInt8.not_lt.1 h16, if_neg h16⟩

theorem receives_of_write? {m m' : Machine} {number : UInt8} {value : UInt16}
    (h : m.write? (.ofNumber number) value = .ok m') : m.Receives number value m' := by
  rcases ofNumber_cases number with ⟨rfl, hn⟩ | ⟨h1, h15, hn⟩ | ⟨h16, hn⟩
  · rw [hn] at h
    obtain ⟨frame, hf, rfl⟩ := map_eq_ok_iff.1 h
    obtain ⟨-, rfl⟩ := Frame.push_eq_ok_iff.1 hf
    exact ⟨fun _ => ⟨rfl, rfl⟩, nofun, nofun⟩
  · rw [hn] at h
    obtain ⟨frame, hf, rfl⟩ := map_eq_ok_iff.1 h
    obtain ⟨hd, rfl⟩ := Frame.writeLocal_eq_ok_iff.1 hf
    have hslot : (number - 1).toNat = number.toNat - 1 := UInt8.toNat_sub_of_le _ _ h1
    have hdeclared : number ≤ m.calls.current.declared := by
      have hpos : 1 ≤ number.toNat := h1
      rw [UInt8.lt_iff_toNat_lt, hslot] at hd
      show number.toNat ≤ m.calls.current.declared.toNat
      omega
    refine ⟨?_, fun _ _ => ⟨rfl, hdeclared, by rw [← hslot]; rfl⟩, fun h16 => ?_⟩
    · rintro rfl
      cases h1
    · exact absurd (UInt8.le_trans h16 h15) (by decide)
  · rw [hn] at h
    obtain ⟨memory, hm, rfl⟩ := map_eq_ok_iff.1 h
    obtain ⟨hsize, -, rfl⟩ := Memory.writeWord_eq_ok_iff.1 hm
    refine ⟨?_, fun _ h15 => ?_, fun _ => ⟨rfl, ?_, ?_, fun k hk hk' => ?_⟩⟩
    · rintro rfl
      cases h16
    · exact absurd (UInt8.le_trans h16 h15) (by decide)
    · rw [Memory.getElem?_setWord, if_neg (by omega), if_pos ⟨rfl, by omega⟩]
    · rw [Memory.getElem?_setWord, if_pos ⟨rfl, hsize⟩]
    · rw [Memory.getElem?_setWord, if_neg (fun h => hk' h.1), if_neg (fun h => hk h.1)]

/-! ### The whole bracket -/

/-- A call left a machine for a routine, and came back in the step after the given number of them. -/
structure IsolatesCaller (m : Machine) (call : Instruction) (caller : Machine) (n : Nat) : Prop where
  entered : (m.after 1).calls.depth = m.calls.depth + 1
  /-- The frames that the call was made from, its operands taken, stay the same until the return. -/
  untouched : ∀ k, 1 ≤ k → k ≤ n → (m.after k).calls.frames.take m.calls.depth = caller.calls.frames
  resumed : (m.after (n + 1)).pc = call.nextPc
  /-- The last step returns a value, and writes it, in the frames of the caller, where the call says. -/
  returned : ∃ number value i op values m₁ m₂, call.store = some number ∧
    (m.after n).Performs i op values m₁ ∧ Returns m₁ i op values value ∧
    (Action.writeVariable (.ofNumber number) value).report ((m.after n).backIn caller.calls call.nextPc) =
      ⟨.ok (), m₂, []⟩ ∧
    m.after (n + 1) = { m₂ with executed := m₂.executed + 1 } ∧
    ((m.after n).backIn caller.calls call.nextPc).Receives number value (m.after (n + 1))

/-- **Calls and returns isolate the caller.**  Take a run of successful steps that begins with a call to a routine, stays
inside of it, and ends at the depth where it began.  All along, the frames of the caller are those that the call left; at
the end, execution goes on after the call, and the returned value is in the variable that the call names. -/
theorem call_isolates_caller {m caller : Machine} {call : Instruction} {packed : UInt16} {arguments : List UInt16}
    {n : Nat} (hcall : m.Performs call .call (packed :: arguments) caller) (hpacked : packed ≠ 0)
    (hok : ∀ k, k ≤ n → (m.after k).step.result.isOk)
    (hdeep : ∀ k, k ≤ n → 1 ≤ k → m.calls.depth + 1 ≤ (m.after k).calls.depth)
    (hback : (m.after (n + 1)).calls.depth = m.calls.depth) : m.IsolatesCaller call caller n := by
  obtain ⟨entry, hentry, hpc, hstore, hdepth⟩ := inCall_of_call hcall hpacked (hok 0 (Nat.zero_le n))
  obtain ⟨number, hnumber⟩ := Option.isSome_iff_exists.1 hcall.suits.store
  have hreturn : entry.returnStore = some number := hstore.trans hnumber
  have hbase : caller.calls.depth = m.calls.depth := hcall.depth_eq
  have hinside : ∀ k, k + 1 ≤ n → caller.calls.InCall entry (m.after (k + 1)).calls := by
    refine fun k hk => inCall_after hentry hreturn hok (fun k hk h1 => ?_) hk
    rw [hbase]
    exact hdeep k hk h1
  -- the call itself does not end at the depth where it began
  obtain ⟨k, rfl⟩ : ∃ k, n = k + 1 := by
    rcases n with _ | k
    · rw [show (m.after (0 + 1)).calls.depth = m.calls.depth + 1 from hdepth] at hback
      omega
    · exact ⟨k, rfl⟩
  have hlast : (m.after (k + 1)).ReturnsTo caller.calls entry.returnPc number := by
    rcases step_of_inCall (hinside k (Nat.le_refl _)) hreturn (hok (k + 1) (Nat.le_refl _)) with h | h
    · have hlt := h.depth_lt
      have : (m.after (k + 1)).step.machine.calls.depth = m.calls.depth := hback
      omega
    · exact h
  obtain ⟨i, op, values, m₁, value, m₂, hp, hr, hw, hm⟩ := hlast
  rw [hpc] at hw
  have hreceives := receives_of_write? hw
  refine ⟨hdepth, fun k' h1 hk' => ?_, ?_, number, value, i, op, values, m₁, m₂, hnumber, hp, hr, ?_, hm, ?_⟩
  · obtain ⟨j, rfl⟩ : ∃ j, k' = j + 1 := ⟨k' - 1, by omega⟩
    rw [← hbase]
    exact (hinside j hk').take_frames
  · show (m.after (k + 1)).step.machine.pc = call.nextPc
    rw [hm]
    exact pc_of_write? hw
  · rw [Action.report_writeVariable, hw]
    rfl
  · show Receives _ number value (m.after (k + 1)).step.machine
    rw [hm]
    exact ⟨hreceives.onStack, hreceives.inLocal, hreceives.inGlobal⟩

/-- A story that calls a routine.  The routine calls another one, which returns its local to a global, and then returns true
to the stack. -/
def nested : Array UInt8 :=
  #[3, 0, 0, 1, 0, 34, 0, 34, 0, 34, 0, 34, 0, 16, 0, 34, 0, 0, 48, 48, 48, 48, 48, 48, 0, 34, 0, 0, 0, 0, 0, 0, 0, 0,
    0xE0, 0x3F, 0x00, 0x14, 0x00, 0xBA, 0x00, 0xE0, 0x3F, 0x00, 0x18, 0x10, 0xB0, 0xBA, 0x01, 0x00, 0x05, 0xAB, 0x01]

theorem nested_isolates_caller :
    ∃ m call caller, load nested = .ok m ∧ m.Performs call .call [20] caller ∧ m.IsolatesCaller call caller 3 ∧
      (m.after 2).calls.depth = 3 ∧ (m.after 4).pc = 39 ∧ (m.after 4).calls.current.stack = [1] :=
  ⟨_, _, _, rfl, ⟨rfl, by decide, rfl⟩,
    call_isolates_caller ⟨rfl, by decide, rfl⟩ (by decide) (by decide) (by decide) rfl, rfl, rfl, rfl⟩

end Machine

end ZMachine
