import ZMachine.Proofs.Stages

/-!
# Where effects come from

The instructions that can have a given effect.

* `Returns`: the five ways in which an instruction returns a value from its routine;
* `Effect.Origin`, `Effect.origin_of`: which instruction is behind an effect that enters or leaves a routine, writes to
  memory or fails;
* `Returns.apply_eq`: every instruction that returns a value leaves the routine with it.
-/

namespace ZMachine

/-- An instruction returns a value from its routine: its operation does, or it takes a branch to one of the two offsets that
stand for a return. -/
inductive Returns (m : Machine) (i : Instruction) : Operation → List UInt16 → UInt16 → Prop
  | ret (value : UInt16) (rest : List UInt16) : Returns m i .ret (value :: rest) value
  | rtrue (values : List UInt16) : Returns m i .rtrue values 1
  | rfalse (values : List UInt16) : Returns m i .rfalse values 0
  | retPopped (values : List UInt16) {value : UInt16} {rest : List UInt16}
      (popped : m.calls.current.stack = value :: rest) : Returns m i .retPopped values value
  | branchFalse {op : Operation} {values : List UInt16} {b : Branch} (branch : i.branch = some b)
      (taken : op.test? values = some b.onTrue) (offset : b.offset = 0) : Returns m i op values 0
  | branchTrue {op : Operation} {values : List UInt16} {b : Branch} (branch : i.branch = some b)
      (taken : op.test? values = some b.onTrue) (offset : b.offset = 1) : Returns m i op values 1

namespace Effect

/-- What is known of an instruction that has an effect. -/
def Origin (m : Machine) (op : Operation) (i : Instruction) (values : List UInt16) : Effect → Prop
  | .enter routine arguments returnStore =>
    op = .call ∧ returnStore = i.store ∧ ∃ packed, packed ≠ 0 ∧ values = packed :: arguments ∧ routine = m.unpack packed
  | .leave value => Returns m i op values value
  | .leavePopped => op = .retPopped
  | .writeByte _ _ => op = .storeb
  | .writeWord _ _ => op = .storew
  | .putProperty _ _ _ => op = .putProp
  | .fail fault => fault.isMalformed = false
  | _ => True

variable {m : Machine} {op : Operation} {i : Instruction} {values : List UInt16}

theorem origin_result {r : Except Fault UInt16} (h : PastDecoding r) :
    Origin m op i values (result i r) := by
  cases r with
  | error fault => exact h fault rfl
  | ok value =>
    unfold result
    cases i.target <;> trivial

theorem origin_branch {holds : Bool} (h : op.test? values = some holds) : Origin m op i values (branch i holds) := by
  unfold branch
  split
  · trivial
  · next b hb =>
    split
    · next ht =>
      subst ht
      unfold Branch.destination
      by_cases h0 : b.offset = 0
      · simp only [h0, if_true]
        exact .branchFalse hb h h0
      · by_cases h1 : b.offset = 1
        · simp only [h1, if_true]
          exact .branchTrue hb h h1
        · simp only [h0, h1, if_false]
          trivial
    · trivial

/-- **Every effect has its origin**, given as many values as the operation works on. -/
theorem origin_of (m : Machine) (i : Instruction) (h : op.entry.minOperands ≤ values.length) :
    Origin m op i values (Effect.of m op i values) := by
  unfold Effect.of
  cases ht : op.test? values with
  | some holds => exact origin_branch ht
  | none =>
    dsimp only
    cases op with
    | je | jz =>
      rcases values with _ | ⟨a, rest⟩
      · simp [Operation.entry] at h
      · cases ht
    | jl | jg =>
      rcases values with _ | ⟨a, _ | ⟨b, rest⟩⟩
      · simp [Operation.entry] at h
      · simp [Operation.entry] at h
      · cases ht
    | or | and | add | sub | mul =>
      rcases values with _ | ⟨a, _ | ⟨b, rest⟩⟩
      · simp [Operation.entry] at h
      · simp [Operation.entry] at h
      · exact origin_result (.ok _)
    | div | mod =>
      rcases values with _ | ⟨a, _ | ⟨b, rest⟩⟩
      · simp [Operation.entry] at h
      · simp [Operation.entry] at h
      · exact origin_result (.ite (.error rfl) (.ok _))
    | load =>
      rcases values with _ | ⟨name, rest⟩
      · simp [Operation.entry] at h
      · exact origin_result (m.pastDecoding_valueOf _)
    | loadw =>
      rcases values with _ | ⟨array, _ | ⟨index, rest⟩⟩
      · simp [Operation.entry] at h
      · simp [Operation.entry] at h
      · exact origin_result (m.memory.pastDecoding_readWord _)
    | loadb =>
      rcases values with _ | ⟨array, _ | ⟨index, rest⟩⟩
      · simp [Operation.entry] at h
      · simp [Operation.entry] at h
      · exact origin_result (.map (m.memory.pastDecoding_readByte _))
    | store =>
      rcases values with _ | ⟨name, _ | ⟨value, rest⟩⟩
      · simp [Operation.entry] at h
      · simp [Operation.entry] at h
      · trivial
    | storew | storeb | putProp =>
      rcases values with _ | ⟨a, _ | ⟨b, _ | ⟨c, rest⟩⟩⟩
      · simp [Operation.entry] at h
      · simp [Operation.entry] at h
      · simp [Operation.entry] at h
      · rfl
    | push | pull | jump =>
      rcases values with _ | ⟨a, rest⟩
      · simp [Operation.entry] at h
      · trivial
    | call =>
      rcases values with _ | ⟨packed, arguments⟩
      · simp [Operation.entry] at h
      · dsimp only [call]
        split
        · cases i.store <;> trivial
        · next hp => exact ⟨rfl, rfl, packed, hp, rfl, rfl⟩
    | ret =>
      rcases values with _ | ⟨value, rest⟩
      · simp [Operation.entry] at h
      · exact .ret value rest
    | rtrue => exact .rtrue values
    | rfalse => exact .rfalse values
    | retPopped => rfl
    | quit => trivial

end Effect

/-- **Every instruction that returns a value leaves its routine with it.**  At most one more value, the returned one, is
gone from the stack by then. -/
theorem Returns.apply_eq {m : Machine} {i : Instruction} {op : Operation} {values : List UInt16} {value : UInt16}
    (h : Returns m i op values value) :
    ∃ n, n ≤ 1 ∧ (Effect.of m op i values).apply m = { m with calls := m.calls.discard n }.leave value := by
  cases h with
  | ret value rest => exact ⟨0, Nat.zero_le 1, rfl⟩
  | rtrue values => exact ⟨0, Nat.zero_le 1, rfl⟩
  | rfalse values => exact ⟨0, Nat.zero_le 1, rfl⟩
  | retPopped values popped =>
    refine ⟨1, Nat.le_refl 1, ?_⟩
    show m.pop.andThen _ = _
    rcases m.pop_cases with ⟨-, hs⟩ | ⟨value', rest', hs, hp⟩
    · rw [hs] at popped
      cases popped
    · rw [hs] at popped
      cases popped
      rw [hp, Report.andThen_ok]
      rfl
  | branchFalse branch taken offset =>
    refine ⟨0, Nat.zero_le 1, ?_⟩
    simp [Effect.of, taken, Effect.branch, branch, Branch.destination, offset, Effect.apply]
  | branchTrue branch taken offset =>
    refine ⟨0, Nat.zero_le 1, ?_⟩
    simp [Effect.of, taken, Effect.branch, branch, Branch.destination, offset, Effect.apply]

end ZMachine
