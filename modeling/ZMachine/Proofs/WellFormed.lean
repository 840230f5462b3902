import ZMachine.Proofs.Invariant

/-!
# Well-formed call stacks

The shape that the frames of a story keep through every run, in which every limit is respected and the outermost frame is
still the one that execution started in.

* `Frame.WellFormed`, `CallStack.WellFormed`: the invariant;
* `Machine.calls_wellFormed_invariant`: a step keeps it, successful or not;
* `Machine.calls_wellFormed_after`: so does every run of a story.
-/

namespace ZMachine

/-! ### Single frames -/

namespace Frame

/-- A frame within its limits: no more locals than slots, nothing in the slots of undeclared locals, and no more values on
the evaluation stack than it holds. -/
structure WellFormed (f : Frame) : Prop where
  declared_le : f.declared.toNat ≤ localLimit
  undeclared_eq_zero : ∀ slot (h : slot < localLimit), f.declared.toNat ≤ slot → f.locals[slot] = 0
  stack_le : f.stack.length ≤ stackLimit

/-- The frame that execution starts in: no routine, no locals, nothing to return to. -/
structure IsOutermost (f : Frame) : Prop where
  routine : f.routine = 0
  returnPc : f.returnPc = 0
  declared : f.declared = 0
  returnStore : f.returnStore = none

/-- The frame of a called routine, which has an address and keeps what is returned. -/
structure IsCalled (f : Frame) : Prop where
  routine : f.routine ≠ 0
  returnStore : f.returnStore.isSome

variable {f f' : Frame} {value : UInt16} {slot : UInt8}

theorem wellFormed_outermost : outermost.WellFormed :=
  ⟨by decide, by simp [outermost], by decide⟩

theorem SameCall.isOutermost (h : f.SameCall f') (hf : f.IsOutermost) : f'.IsOutermost :=
  ⟨h.routine.trans hf.routine, h.returnPc.trans hf.returnPc, h.declared.trans hf.declared,
    h.returnStore.trans hf.returnStore⟩

theorem SameCall.isCalled (h : f.SameCall f') (hf : f.IsCalled) : f'.IsCalled := by
  refine ⟨?_, ?_⟩
  · rw [h.routine]
    exact hf.routine
  · rw [h.returnStore]
    exact hf.returnStore

namespace WellFormed

theorem drop (h : f.WellFormed) (n : Nat) : { f with stack := f.stack.drop n }.WellFormed := by
  refine ⟨h.declared_le, h.undeclared_eq_zero, ?_⟩
  have := h.stack_le
  simp only [List.length_drop]
  omega

theorem of_push (h : f.WellFormed) (hp : f.push value = .ok f') : f'.WellFormed := by
  obtain ⟨hl, rfl⟩ := push_eq_ok_iff.1 hp
  exact ⟨h.declared_le, h.undeclared_eq_zero, hl⟩

theorem of_replaceTop (h : f.WellFormed) (hr : f.replaceTop value = .ok f') : f'.WellFormed := by
  obtain ⟨top, rest, hs, rfl⟩ := replaceTop_eq_ok_iff.1 hr
  refine ⟨h.declared_le, h.undeclared_eq_zero, ?_⟩
  have := h.stack_le
  rw [hs] at this
  exact this

theorem of_writeLocal (h : f.WellFormed) (hw : f.writeLocal slot value = .ok f') : f'.WellFormed := by
  obtain ⟨hs, rfl⟩ := writeLocal_eq_ok_iff.1 hw
  refine ⟨h.declared_le, fun k hk hd => ?_, h.stack_le⟩
  -- the slot that is written is a declared one
  have hne : slot.toNat ≠ k := by
    have : slot.toNat < f.declared.toNat := hs
    dsimp only at hd
    omega
  simp only [Vector.getElem_setIfInBounds_ne hk hne]
  exact h.undeclared_eq_zero k hk hd

theorem of_setLocals (h : f.WellFormed) (initial arguments : List UInt16) :
    (f.setLocals initial arguments).WellFormed := by
  refine ⟨?_, fun k hk hd => ?_, ?_⟩
  · rw [declared_setLocals]
    exact h.declared_le
  · rw [declared_setLocals] at hd
    rw [getElem_setLocals f initial arguments hk, if_neg (Nat.not_lt.2 hd)]
    exact h.undeclared_eq_zero k hk hd
  · rw [stack_setLocals]
    exact h.stack_le

theorem of_create {routine returnPc : UInt32} {returnStore : Option UInt8} {declared : UInt8}
    (h : create routine returnPc returnStore declared = .ok f) : f.WellFormed := by
  obtain ⟨hd, rfl⟩ := create_eq_ok_iff.1 h
  exact ⟨hd, by simp [outermost], Nat.zero_le _⟩

end WellFormed

end Frame

/-! ### Call stacks -/

namespace CallStack

/-- A call stack within its limits: at the bottom the frame that execution started in, above it frames of called routines
only. -/
structure WellFormed (c : CallStack) : Prop where
  depth_pos : 1 ≤ c.depth
  depth_le : c.depth ≤ depthLimit
  frames : ∀ f ∈ c.frames, f.WellFormed
  layers : ∃ bottom called, c.frames = bottom :: called ∧ bottom.IsOutermost ∧ ∀ f ∈ called, f.IsCalled

theorem wellFormed_start : start.WellFormed := by
  refine ⟨by decide, by decide, ?_, .outermost, [], rfl, ⟨rfl, rfl, rfl, rfl⟩, nofun⟩
  intro f hf
  rw [List.mem_singleton.1 hf]
  exact Frame.wellFormed_outermost

namespace WellFormed

variable {c c' : CallStack} {frame : Frame}

theorem current (h : c.WellFormed) : c.current.WellFormed :=
  h.frames _ (by simp [frames_eq])

/-- The current frame may become another well-formed state of itself. -/
theorem with_current (h : c.WellFormed) (hs : c.current.SameCall frame) (hf : frame.WellFormed) :
    { c with current := frame }.WellFormed := by
  obtain ⟨bottom, called, hc, hb, hcalled⟩ := h.layers
  refine ⟨h.depth_pos, h.depth_le, fun f hm => ?_, ?_⟩
  · rw [frames_eq, List.mem_append, List.mem_singleton] at hm
    rcases hm with hm | rfl
    · exact h.frames f (by rw [frames_eq]; exact List.mem_append_left _ hm)
    · exact hf
  · rw [frames_eq] at hc ⊢
    -- either the current frame is the bottom one, or the bottom one is among its callers
    rcases hr : c.callers.reverse with _ | ⟨_, rest⟩
    · rw [hr] at hc
      cases hc
      exact ⟨frame, [], rfl, hs.isOutermost hb, nofun⟩
    · rw [hr] at hc
      cases hc
      refine ⟨bottom, rest ++ [frame], rfl, hb, fun f hm => ?_⟩
      rcases List.mem_append.1 hm with hm | hm
      · exact hcalled f (List.mem_append_left _ hm)
      · rw [List.mem_singleton.1 hm]
        exact hs.isCalled (hcalled _ (List.mem_append_right _ (List.mem_singleton.2 rfl)))

theorem of_push (h : c.WellFormed) (hp : c.push frame = .ok c') (hf : frame.WellFormed) (hc : frame.IsCalled) :
    c'.WellFormed := by
  obtain ⟨bottom, called, hframes, hb, hcalled⟩ := h.layers
  have hpush := frames_push hp
  obtain ⟨hd, rfl⟩ := push_eq_ok_iff.1 hp
  refine ⟨Nat.succ_pos _, hd, fun f hm => ?_, bottom, called ++ [frame], ?_, hb, fun f hm => ?_⟩
  · rw [hpush, List.mem_append, List.mem_singleton] at hm
    rcases hm with hm | rfl
    · exact h.frames f hm
    · exact hf
  · rw [hpush, hframes, List.cons_append]
  · rcases List.mem_append.1 hm with hm | hm
    · exact hcalled f hm
    · rw [List.mem_singleton.1 hm]
      exact hc

theorem of_pop (h : c.WellFormed) (hc : c.callers = c'.current :: c'.callers) : c'.WellFormed := by
  obtain ⟨bottom, called, hframes, hb, hcalled⟩ := h.layers
  have hpop := frames_pop hc
  have hdepth : c.depth = c'.depth + 1 := by rw [depth, hc, List.length_cons, depth]
  refine ⟨Nat.succ_pos _, Nat.le_trans (by omega) h.depth_le, fun f hm => ?_, ?_⟩
  · exact h.frames f (by rw [hpop]; exact List.mem_append_left _ hm)
  · rcases hr : c'.frames with _ | ⟨bottom', rest⟩
    · simp [frames_eq] at hr
    · rw [hpop, hr, List.cons_append, List.cons.injEq] at hframes
      obtain ⟨rfl, rfl⟩ := hframes
      exact ⟨bottom', rest, rfl, hb, fun f hm => hcalled f (List.mem_append_left _ hm)⟩

theorem discard (h : c.WellFormed) (n : Nat) : (c.discard n).WellFormed :=
  h.with_current (sameCall_discard c n) (h.current.drop n)

end WellFormed

end CallStack

/-! ### Runs -/

namespace Machine

variable {m m' : Machine} {value : UInt16}

theorem calls_wellFormed_of_sets (h : m.calls.WellFormed) (hs : m.Sets value m') : m'.calls.WellFormed := by
  cases hs with
  | push hf => exact h.with_current (Frame.sameCall_of_push hf) (h.current.of_push hf)
  | replaceTop hf => exact h.with_current (Frame.sameCall_of_replaceTop hf) (h.current.of_replaceTop hf)
  | writeLocal hf => exact h.with_current (Frame.sameCall_of_writeLocal hf) (h.current.of_writeLocal hf)
  | writeGlobal hm => exact h

theorem unpack_ne_zero (m : Machine) {packed : UInt16} (h : packed ≠ 0) : UInt32.ofNat (m.unpack packed) ≠ 0 := by
  have hp : packed.toNat ≠ 0 := fun h0 => h (UInt16.toNat_inj.1 h0)
  have hlt : packed.toNat < 2 ^ 16 := packed.toNat_lt
  have hunit : packingUnit m.version = 2 ∨ packingUnit m.version = 4 ∨ packingUnit m.version = 8 := by
    unfold packingUnit
    split
    · exact .inl rfl
    · split
      · exact .inr (.inl rfl)
      · exact .inr (.inr rfl)
  -- a packed address is too short to wrap around
  intro h0
  have := congrArg UInt32.toNat h0
  rw [UInt32.toNat_ofNat', unpack] at this
  rcases hunit with hu | hu | hu <;> rw [hu] at this <;> simp at this <;> omega

/-- **A step keeps the frames well-formed**, whether it succeeds or fails. -/
theorem calls_wellFormed_invariant : Invariant fun m => m.calls.WellFormed where
  place _ _ h := h
  discard n h := h.discard n
  sets h hs := calls_wellFormed_of_sets h hs
  writes h _ := h
  put h hp := by
    rw [calls_of_put? hp]
    exact h
  enter {m _ packed _ _} h hne he := by
    obtain ⟨frame, start, hf, hpush, -⟩ := enter?_eq_ok he
    obtain ⟨hroutine, -, hstore⟩ := sameCall_of_frameAt hf
    have hw : frame.WellFormed := by
      obtain ⟨declared, created, initial, hc, rfl⟩ := frameAt_eq_ok hf
      exact (Frame.WellFormed.of_create hc).of_setLocals _ _
    refine h.of_push hpush hw ⟨?_, ?_⟩
    · rw [hroutine]
      exact m.unpack_ne_zero hne
    · rw [hstore]
      rfl
  caller h hc := h.of_pop (caller?_eq_some hc).1

/-- **The frames of a story are well-formed throughout every run.** -/
theorem calls_wellFormed_after {bytes : Array UInt8} (h : load bytes = .ok m) (n : Nat) :
    (m.after n).calls.WellFormed := by
  refine calls_wellFormed_invariant.after ?_ n
  obtain ⟨hm, -⟩ := load_spec h
  rw [hm]
  exact CallStack.wellFormed_start

/-- A story that calls a routine of one local with two arguments; the routine pulls from its empty stack and fails. -/
def overfed : Array UInt8 :=
  #[3, 0, 0, 1, 0, 34, 0, 34, 0, 34, 0, 34, 0, 16, 0, 34, 0, 0, 48, 48, 48, 48, 48, 48, 0, 34, 0, 0, 0, 0, 0, 0, 0, 0,
    0xE0, 0x17, 0x00, 0x15, 0x07, 0x08, 0x00, 0xBA, 0x01, 0x00, 0x05, 0xE9, 0x7F, 0x01]

theorem overfed_calls_wellFormed :
    ∃ m, load overfed = .ok m ∧ (m.after 2).calls.depth = 2 ∧ (m.after 2).calls.current.declaredLocals = [7] ∧
      (m.after 1).step.result = .error ⟨45, 2, 1, .stackUnderflow⟩ ∧ (m.after 2).calls.WellFormed :=
  ⟨_, rfl, rfl, rfl, rfl, calls_wellFormed_after (show load overfed = _ from rfl) 2⟩

end Machine

end ZMachine
