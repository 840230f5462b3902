import ZMachine.Proofs.Memory
import ZMachine.Proofs.Origin

/-!
# Invariants

A property of machines that survives each of the few ways in which a step can change a machine survives every step and
every run, whether the steps succeed or fail.

* `Machine.Invariant`: what has to be shown of a property;
* `Machine.Invariant.step`, `Machine.Invariant.after`: what follows for a step and for a run.
-/

namespace ZMachine.Machine

/-- A property that survives each way in which a step can change a machine. -/
structure Invariant (P : Machine → Prop) : Prop where
  place : ∀ {m : Machine} pc executed, P m → P { m with pc, executed }
  discard : ∀ {m : Machine} n, P m → P { m with calls := m.calls.discard n }
  sets : ∀ {m m' : Machine} {value : UInt16}, P m → m.Sets value m' → P m'
  writes : ∀ {m : Machine} {memory : Memory}, P m → m.memory.Writes memory → P { m with memory }
  put : ∀ {m m' : Machine} {object value : UInt16} {property : UInt8},
    P m → m.put? object property value = .ok m' → P m'
  /-- Only calls enter a routine: it is not at address 0, and what it returns is stored. -/
  enter : ∀ {m m' : Machine} {packed : UInt16} {arguments : List UInt16} {number : UInt8},
    P m → packed ≠ 0 → m.enter? (m.unpack packed) arguments (some number) = .ok m' → P m'
  caller : ∀ {m m' : Machine}, P m → m.caller? = some m' → P m'

namespace Invariant

variable {P : Machine → Prop} {m : Machine} {op : Operation} {i : Instruction} {values : List UInt16}

theorem leave (hP : Invariant P) (h : P m) (value : UInt16) : P (m.leave value).machine := by
  unfold Machine.leave
  split
  · exact h
  · next hc _ => exact hP.caller h hc
  · next hc _ =>
    have h' := hP.caller h hc
    exact Report.attempt_machine h' fun m₂ hw => hP.sets h' (sets_of_write? hw)

/-- An invariant survives the effect of every instruction. -/
theorem apply (hP : Invariant P) (h : P m) (hs : i.Suits op) (hv : op.entry.minOperands ≤ values.length) :
    P ((Effect.of m op i values).apply m).machine := by
  have ho := Effect.origin_of m i hv
  cases he : Effect.of m op i values with
  | nothing | fail fault => exact h
  | jump pc => exact hP.place pc m.executed h
  | push value | store target value => exact Report.attempt_machine h fun m₂ hw => hP.sets h (sets_of_write? hw)
  | assign target value => exact Report.attempt_machine h fun m₂ hw => hP.sets h (sets_of_assign? hw)
  | writeByte address byte =>
    refine Report.attempt_machine h fun m₂ hw => ?_
    obtain ⟨memory, hm, rfl⟩ := map_eq_ok_iff.1 hw
    exact hP.writes h (.byte hm)
  | writeWord address word =>
    refine Report.attempt_machine h fun m₂ hw => ?_
    obtain ⟨memory, hm, rfl⟩ := map_eq_ok_iff.1 hw
    exact hP.writes h (.word hm)
  | putProperty object property value => exact Report.attempt_machine h fun m₂ hp => hP.put h hp
  | enter routine arguments returnStore =>
    rw [he] at ho
    obtain ⟨rfl, rfl, packed, hp, -, rfl⟩ := ho
    -- a call is fetched with the number of the variable that takes the result
    obtain ⟨number, hn⟩ := Option.isSome_iff_exists.1 hs.store
    show P (m.enter _ _ _).machine
    unfold Machine.enter
    split
    · next hm =>
      rw [hn] at hm
      exact hP.enter h hp hm
    · exact h
  | leave value => exact hP.leave h value
  | pull target =>
    refine pop_andThen_keeps h (hP.discard 1 h) fun value m₂ h' => ?_
    exact Report.attempt_machine h' fun m₃ hw => hP.sets h' (sets_of_assign? hw)
  | leavePopped => exact pop_andThen_keeps h (hP.discard 1 h) fun value m₂ h' => hP.leave h' value

/-- **An invariant survives every step**, whether it succeeds or fails. -/
theorem step (hP : Invariant P) (h : P m) : P m.step.machine := by
  show P m.step.report.machine
  rcases m.step_cases with ⟨fault, -, hs⟩ | ⟨fault, n, -, -, hs⟩ | ⟨i, op, values, m', hp⟩
  · rw [hs]
    exact h
  · rw [hs]
    exact hP.discard n h
  · obtain ⟨n, -, hm'⟩ := hp.machine_eq
    have h' : P m' := by
      rw [hm']
      exact hP.place i.nextPc m.executed (hP.discard n h)
    have he := hP.apply h' hp.suits hp.length_values
    rcases ha : (Effect.of m' op i values).apply m' with ⟨fault | ⟨⟩, m'', events⟩
    · rw [hp.step_error ha]
      rw [ha] at he
      exact hP.place m.pc m''.executed he
    · rw [hp.step_ok ha]
      rw [ha] at he
      exact hP.place m''.pc (m''.executed + 1) he

/-- **An invariant survives every run.** -/
theorem after (hP : Invariant P) (h : P m) (n : Nat) : P (m.after n) := by
  induction n with
  | zero => exact h
  | succ n ih => exact hP.step ih

end Invariant

end ZMachine.Machine
