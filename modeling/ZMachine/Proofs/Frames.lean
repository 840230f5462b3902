import ZMachine.CallStack

/-!
# Frames and their call stack

What the operations on frames and call stacks come to when they succeed, and the shortening of an evaluation stack from its
top, which is all that reading operands does to a call stack.

* `Frame.push_eq_ok_iff`, `Frame.pop_eq_ok_iff`, …: success as an equation;
* `Frame.SameCall`: two states of the frame of one call;
* `Frame.getElem_setLocals`: the locals of a call, slot by slot;
* `CallStack.discard`: some values taken off the current evaluation stack;
* `CallStack.frames_push`, `CallStack.frames_pop`: entering and leaving a routine, the frames in order.
-/

namespace ZMachine

/-- A guarded computation succeeds if the guard does not stop it. -/
theorem guarded_eq_ok_iff {ε α : Type} {p : Prop} [Decidable p] {fault : ε} {a b : α} :
    (if p then Except.error fault else .ok a) = .ok b ↔ ¬p ∧ b = a := by
  split
  · simp_all
  · simp_all [eq_comm]

namespace Frame

variable {f f' : Frame} {value : UInt16} {slot : UInt8}

theorem push_eq_ok_iff :
    f.push value = .ok f' ↔ f.stack.length < stackLimit ∧ f' = { f with stack := value :: f.stack } := by
  rw [push, guarded_eq_ok_iff, Nat.not_le]

theorem writeLocal_eq_ok_iff :
    f.writeLocal slot value = .ok f' ↔
      slot < f.declared ∧ f' = { f with locals := f.locals.setIfInBounds slot.toNat value } := by
  rw [writeLocal, ← ite_not, guarded_eq_ok_iff, Classical.not_not]

theorem create_eq_ok_iff {routine returnPc : UInt32} {returnStore : Option UInt8} {declared : UInt8} :
    create routine returnPc returnStore declared = .ok f ↔
      declared.toNat ≤ localLimit ∧ f = { outermost with routine, returnPc, returnStore, declared } := by
  rw [create, guarded_eq_ok_iff, Nat.not_lt]

theorem pop_eq_ok_iff : f.pop = .ok (value, f') ↔ ∃ rest, f.stack = value :: rest ∧ f' = { f with stack := rest } := by
  unfold pop
  cases f.stack with
  | nil => simp
  | cons top rest =>
    simp only [Except.ok.injEq, Prod.mk.injEq, List.cons.injEq]
    constructor
    · rintro ⟨rfl, rfl⟩
      exact ⟨rest, ⟨rfl, rfl⟩, rfl⟩
    · rintro ⟨_, ⟨rfl, rfl⟩, rfl⟩
      exact ⟨rfl, rfl⟩

theorem replaceTop_eq_ok_iff :
    f.replaceTop value = .ok f' ↔ ∃ top rest, f.stack = top :: rest ∧ f' = { f with stack := value :: rest } := by
  unfold replaceTop
  cases f.stack with
  | nil => simp
  | cons top rest =>
    simp only [Except.ok.injEq, List.cons.injEq]
    constructor
    · rintro rfl
      exact ⟨top, rest, ⟨rfl, rfl⟩, rfl⟩
    · rintro ⟨_, _, ⟨rfl, rfl⟩, rfl⟩
      rfl

/-- Two states of the frame of one call: what was fixed when the routine was entered is the same. -/
structure SameCall (f f' : Frame) : Prop where
  routine : f'.routine = f.routine
  returnPc : f'.returnPc = f.returnPc
  returnStore : f'.returnStore = f.returnStore
  declared : f'.declared = f.declared

theorem SameCall.refl (f : Frame) : f.SameCall f :=
  ⟨rfl, rfl, rfl, rfl⟩

theorem SameCall.trans {f'' : Frame} (h : f.SameCall f') (h' : f'.SameCall f'') : f.SameCall f'' :=
  ⟨h'.routine.trans h.routine, h'.returnPc.trans h.returnPc, h'.returnStore.trans h.returnStore,
    h'.declared.trans h.declared⟩

theorem sameCall_of_push (h : f.push value = .ok f') : f.SameCall f' := by
  obtain ⟨-, rfl⟩ := push_eq_ok_iff.1 h
  exact ⟨rfl, rfl, rfl, rfl⟩

theorem sameCall_of_replaceTop (h : f.replaceTop value = .ok f') : f.SameCall f' := by
  obtain ⟨_, _, -, rfl⟩ := replaceTop_eq_ok_iff.1 h
  exact ⟨rfl, rfl, rfl, rfl⟩

theorem sameCall_of_writeLocal (h : f.writeLocal slot value = .ok f') : f.SameCall f' := by
  obtain ⟨-, rfl⟩ := writeLocal_eq_ok_iff.1 h
  exact ⟨rfl, rfl, rfl, rfl⟩

section SetLocals

variable (f : Frame) (values initial arguments : List UInt16)

@[simp]
theorem stack_setLocals : (f.setLocals initial arguments).stack = f.stack := rfl

@[simp]
theorem declared_setLocals : (f.setLocals initial arguments).declared = f.declared := rfl

theorem sameCall_setLocals : f.SameCall (f.setLocals initial arguments) :=
  ⟨rfl, rfl, rfl, rfl⟩

/-- Cells that are set one after the other from a slot on: those before it stay, and so do those for which there is no
value. -/
theorem getElem_foldl_setIfInBounds {start slot : Nat} (locals : Vector UInt16 localLimit) (h : slot < localLimit) :
    ((values.zipIdx start).foldl (fun locals (value, slot) => locals.setIfInBounds slot value) locals)[slot] =
      if start ≤ slot then values[slot - start]?.getD locals[slot] else locals[slot] := by
  induction values generalizing start locals with
  | nil => simp
  | cons value values ih =>
    rw [List.zipIdx_cons, List.foldl_cons, ih, Vector.getElem_setIfInBounds h]
    by_cases hslot : start = slot
    · subst hslot
      rw [if_pos rfl, if_neg (by omega), if_pos (Nat.le_refl start), Nat.sub_self]
      rfl
    · rw [if_neg hslot]
      by_cases hle : start ≤ slot
      · obtain ⟨k, hk⟩ : ∃ k, slot - start = k + 1 := ⟨slot - start - 1, by omega⟩
        rw [if_pos (by omega), if_pos hle, hk, List.getElem?_cons_succ, show slot - (start + 1) = k by omega]
      · rw [if_neg (by omega), if_neg hle]

theorem getElem_fillLocals {slot : Nat} (h : slot < localLimit) :
    (f.fillLocals values).locals[slot] =
      if slot < f.declared.toNat then values[slot]?.getD f.locals[slot] else f.locals[slot] := by
  unfold fillLocals
  rw [getElem_foldl_setIfInBounds _ _ h, if_pos (Nat.zero_le slot), Nat.sub_zero, List.getElem?_take]
  by_cases hslot : slot < f.declared.toNat
  · rw [if_pos hslot, if_pos hslot]
  · rw [if_neg hslot, if_neg hslot, Option.getD_none]

/-- **The locals of a call, slot by slot**: a declared one takes its argument, else its initial value, and all others keep
what the frame was made with. -/
theorem getElem_setLocals {slot : Nat} (h : slot < localLimit) :
    (f.setLocals initial arguments).locals[slot] =
      if slot < f.declared.toNat then (arguments[slot]? <|> initial[slot]?).getD f.locals[slot] else f.locals[slot] := by
  have hdeclared : (f.fillLocals initial).declared = f.declared := rfl
  rw [setLocals, getElem_fillLocals _ _ h, getElem_fillLocals _ _ h, hdeclared]
  by_cases hslot : slot < f.declared.toNat
  · rw [if_pos hslot, if_pos hslot, if_pos hslot]
    cases arguments[slot]? with
    | none | some value => rfl
  · rw [if_neg hslot, if_neg hslot, if_neg hslot]

end SetLocals

end Frame

namespace CallStack

variable {c c' : CallStack} {frame : Frame}

theorem push_eq_ok_iff : c.push frame = .ok c' ↔ c.depth < depthLimit ∧ c' = ⟨frame, c.current :: c.callers⟩ := by
  rw [push, guarded_eq_ok_iff, Nat.not_le]

/-! ### Values taken off the current evaluation stack -/

/-- The call stack with some values, counted from the top, taken off the current evaluation stack. -/
def discard (c : CallStack) (n : Nat) : CallStack :=
  { c with current := { c.current with stack := c.current.stack.drop n } }

@[simp]
theorem discard_zero (c : CallStack) : c.discard 0 = c := rfl

@[simp]
theorem discard_discard (c : CallStack) (n k : Nat) : (c.discard n).discard k = c.discard (n + k) := by
  simp [discard]

@[simp]
theorem depth_discard (c : CallStack) (n : Nat) : (c.discard n).depth = c.depth := rfl

/-- Popping the current evaluation stack is discarding one value. -/
theorem discard_one_of_pop {value : UInt16} (h : c.current.pop = .ok (value, frame)) :
    { c with current := frame } = c.discard 1 := by
  obtain ⟨rest, hs, rfl⟩ := Frame.pop_eq_ok_iff.1 h
  simp [discard, hs]

theorem sameCall_discard (c : CallStack) (n : Nat) : c.current.SameCall (c.discard n).current :=
  ⟨rfl, rfl, rfl, rfl⟩

/-! ### The frames in order -/

theorem frames_eq (c : CallStack) : c.frames = c.callers.reverse ++ [c.current] := by
  simp [frames]

theorem frames_push (h : c.push frame = .ok c') : c'.frames = c.frames ++ [frame] := by
  obtain ⟨-, rfl⟩ := push_eq_ok_iff.1 h
  simp [frames]

theorem frames_pop (h : c.callers = c'.current :: c'.callers) : c.frames = c'.frames ++ [c.current] := by
  simp [frames, h]

end CallStack

end ZMachine
