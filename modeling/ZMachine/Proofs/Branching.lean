import ZMachine.Proofs.CarryOut
import ZMachine.Proofs.Tails

/-!
# Conditional branches

Four operations ask something about their operands and branch on the answer.  Whether they branch and where to stands in
the bytes after the operands; two of the distances stand for a return from the current routine.

* `Operation.Condition`, `Operation.test?_of_conditional`: what each of these operations asks and finds out;
* `Machine.concludeLeave_moved`: a return comes to the same whichever instruction asks for it;
* `Machine.Branches`: what a step does that branches on a condition as its bytes say;
* `Machine.conditional_branch_as_encoded`: this is what every step does with one of these operations.
-/

namespace ZMachine

/-! ### Conditions -/

namespace Operation

/-- The operations that branch on a condition. -/
def conditional : List Operation :=
  [.je, .jl, .jg, .jz]

/-- What a conditional operation asks about the values of its operands. -/
def Condition : Operation → List UInt16 → Prop
  | .je, a :: others => ∃ b ∈ others, a = b
  | .jl, a :: b :: _ => Word.signed a < Word.signed b
  | .jg, a :: b :: _ => Word.signed a > Word.signed b
  | .jz, a :: _ => a = 0
  | _, _ => False

variable {op : Operation} {values : List UInt16}

/-- The tail of a conditional operation is a branch and nothing else. -/
theorem tail_of_conditional (hop : op ∈ conditional) : op.entry.stores = false ∧ op.entry.branches = true := by
  simp only [conditional, List.mem_cons, List.not_mem_nil, or_false] at hop
  rcases hop with rfl | rfl | rfl | rfl <;> exact ⟨rfl, rfl⟩

/-- A conditional operation with enough operands finds out whether its condition holds. -/
theorem test?_of_conditional (hop : op ∈ conditional) (henough : op.entry.minOperands ≤ values.length) :
    ∃ holds, op.test? values = some holds ∧ (holds = true ↔ op.Condition values) := by
  simp only [conditional, List.mem_cons, List.not_mem_nil, or_false] at hop
  rcases hop with rfl | rfl | rfl | rfl
  · rcases values with _ | ⟨a, others⟩
    · cases henough
    · exact ⟨others.contains a, rfl, by simp [Condition]⟩
  · rcases values with _ | ⟨a, _ | ⟨b, rest⟩⟩
    · cases henough
    · simp [entry] at henough
    · exact ⟨decide (Word.signed a < Word.signed b), rfl, decide_eq_true_iff⟩
  · rcases values with _ | ⟨a, _ | ⟨b, rest⟩⟩
    · cases henough
    · simp [entry] at henough
    · exact ⟨decide (Word.signed b < Word.signed a), rfl, decide_eq_true_iff⟩
  · rcases values with _ | ⟨a, rest⟩
    · cases henough
    · exact ⟨decide (a = 0), rfl, decide_eq_true_iff⟩

end Operation

namespace Effect

variable {i : Instruction} {b : Branch} {holds : Bool}

theorem branch_of_ne (hb : i.branch = some b) (h : holds ≠ b.onTrue) : branch i holds = .nothing := by
  simp only [branch, hb, if_neg h]

theorem branch_of_eq (hb : i.branch = some b) (h : holds = b.onTrue) :
    branch i holds =
      if b.offset = 0 then .leave 0 else if b.offset = 1 then .leave 1 else .jump (jumpTarget i.nextPc b.offset) := by
  simp only [branch, hb, if_pos h, Branch.destination]
  by_cases h0 : b.offset = 0
  · rw [if_pos h0, if_pos h0]
  · rw [if_neg h0, if_neg h0]
    by_cases h1 : b.offset = 1
    · rw [if_pos h1, if_pos h1]
    · rw [if_neg h1, if_neg h1]

end Effect

/-! ### Returns -/

namespace Machine

variable {m m' : Machine} {i : Instruction} {op : Operation} {values : List UInt16} {value : UInt16}

/-- What a step comes to that leaves the current routine with a value, once its operands have been read. -/
def concludeLeave (m m' : Machine) (value : UInt16) : Report Failure Progress :=
  m.conclude ((m'.leave value).andThen fun _ m'' => ⟨.ok .running, m'', []⟩)

/-- Neither the address after the instruction nor the instruction itself makes a difference to a return. -/
theorem concludeLeave_moved (m m' : Machine) (pc : UInt32) (value : UInt16) :
    (m.concludeLeave { m' with pc } value).result = (m.concludeLeave m' value).result ∧
      (m.concludeLeave { m' with pc } value).machine = (m.concludeLeave m' value).machine := by
  unfold concludeLeave
  rcases m'.leave_moved pc value with ⟨heq, -⟩ | ⟨hleave, hmoved⟩
  · rw [heq]
    exact ⟨rfl, rfl⟩
  · -- the address is that of the failing instruction in either case
    rw [hleave, hmoved]
    exact ⟨rfl, rfl⟩

theorem carryOut_of_leave (henough : op.entry.minOperands ≤ i.operands.length)
    (hread : (Action.operandValues i.operands).report { m with pc := i.nextPc } = ⟨.ok values, m', []⟩)
    (he : Effect.of m' op i values = .leave value) (hop : op ≠ .quit) :
    (m.carryOut i op).result = (m.concludeLeave m' value).result ∧
      (m.carryOut i op).machine = (m.concludeLeave m' value).machine := by
  unfold concludeLeave
  rcases hleave : m'.leave value with ⟨fault | ⟨⟩, m'', events⟩
  · have happly : (Effect.of m' op i values).apply m' = ⟨.error fault, m'', events⟩ := by
      rw [he]
      exact hleave
    rw [carryOut_error henough hread happly]
    exact ⟨rfl, rfl⟩
  · have happly : (Effect.of m' op i values).apply m' = ⟨.ok (), m'', events⟩ := by
      rw [he]
      exact hleave
    rw [carryOut_ok henough hread happly, if_neg hop]
    exact ⟨rfl, rfl⟩

/-- **A step that leaves its routine** does what an instruction without operands would do that leaves it with the same
value, carried out once the operands have been read. -/
theorem Performs.step_of_leave {r : Instruction} {returns : Operation} (h : m.Performs i op values m')
    (he : Effect.of m' op i values = .leave value) (hop : op ≠ .quit) (hr : r.operands = [])
    (hmin : returns.entry.minOperands = 0) (hreturns : ∀ k, Effect.of k returns r [] = .leave value)
    (hne : returns ≠ .quit) :
    m.step.result = ({ m' with pc := m.pc }.carryOut r returns).result ∧
      m.step.machine = ({ m' with pc := m.pc }.carryOut r returns).machine := by
  have hstep : m.step.report = m.carryOut i op := step_eq_carryOut h.fetched
  have hresult : m.step.result = (m.carryOut i op).result := congrArg Report.result hstep
  have hmachine : m.step.machine = (m.carryOut i op).machine := congrArg Report.machine hstep
  have hread : (Action.operandValues r.operands).report { m' with pc := r.nextPc } =
      ⟨.ok [], { m' with pc := r.nextPc }, []⟩ := by
    rw [hr]
    rfl
  have hfirst := carryOut_of_leave h.enough h.resolved he hop
  have hsecond := carryOut_of_leave (m := { m' with pc := m.pc }) (by rw [hmin]; exact Nat.zero_le _) hread
    (hreturns _) hne
  have hmoved := m.concludeLeave_moved m' r.nextPc value
  exact ⟨hresult.trans (hfirst.1.trans (hmoved.1.symm.trans hsecond.1.symm)),
    hmachine.trans (hfirst.2.trans (hmoved.2.symm.trans hsecond.2.symm))⟩

/-! ### Steps -/

/-- What a step does with an instruction that branches on a condition.  The last argument is the machine once the operands
have been read. -/
structure Branches (m : Machine) (i : Instruction) (b : Branch) (condition : Prop) (ready : Machine) : Prop where
  /-- The branch stands between the operands and the next instruction. -/
  field : ∃ head bytes, Instruction.decode m.memory m.pc.toNat = .ok head ∧ b.SpelledBy bytes ∧
    m.memory.HoldsFrom head.nextPc bytes ∧ i.nextPc = head.nextPc + UInt32.ofNat bytes.length
  /-- Up to the test, all that happens is that the operands on the stack are taken off. -/
  read : ready = { m with pc := i.nextPc, calls := m.calls.discard (i.operands.count (.var .stack)) }
  passed : ¬(condition ↔ b.onTrue = true) →
    m.step.result = .ok .running ∧ m.step.machine = { ready with executed := m.executed + 1 }
  jumped : (condition ↔ b.onTrue = true) → b.offset ≠ 0 → b.offset ≠ 1 →
    m.step.result = .ok .running ∧ ∃ pc : UInt32, (pc.toNat : Int) = (i.nextPc.toNat + b.offset - 2) % 2 ^ 32 ∧
      m.step.machine = { ready with pc, executed := m.executed + 1 }
  /-- The step ends as if the instruction were one that returns, and had no operands. -/
  returnedFalse : (condition ↔ b.onTrue = true) → b.offset = 0 → ∀ r : Instruction, r.operands = [] →
    m.step.result = ({ ready with pc := m.pc }.carryOut r .rfalse).result ∧
      m.step.machine = ({ ready with pc := m.pc }.carryOut r .rfalse).machine
  returnedTrue : (condition ↔ b.onTrue = true) → b.offset = 1 → ∀ r : Instruction, r.operands = [] →
    m.step.result = ({ ready with pc := m.pc }.carryOut r .rtrue).result ∧
      m.step.machine = ({ ready with pc := m.pc }.carryOut r .rtrue).machine

/-- **Conditional branches do what their bytes say.**  Take a machine that gets to perform one of the operations that branch
on a condition.  It branches if the condition comes out as the branch asks: over the distance that stands in its one or two
bytes, or out of the current routine.  Otherwise it goes on after the instruction. -/
theorem conditional_branch_as_encoded {ready : Machine} (h : m.Performs i op values ready)
    (hop : op ∈ Operation.conditional) :
    ∃ b, i.branch = some b ∧ m.Branches i b (op.Condition values) ready := by
  obtain ⟨hstores, hbranches⟩ := Operation.tail_of_conditional hop
  obtain ⟨b, hb⟩ : ∃ b, i.branch = some b := Option.isSome_iff_exists.1 (h.suits.branch.trans hbranches)
  obtain ⟨holds, htest, hholds⟩ := Operation.test?_of_conditional hop h.length_values
  have hquit : op ≠ .quit := by
    rintro rfl
    exact absurd hop (by decide)
  have heffect : Effect.of ready op i values = Effect.branch i holds := by
    simp only [Effect.of, htest]
  have htaken : holds = b.onTrue ↔ (op.Condition values ↔ b.onTrue = true) := by
    rw [← hholds, Bool.eq_iff_iff]
  refine ⟨b, hb, ?_, h.machine_eq_discard, fun hnot => ?_, fun ht h0 h1 => ?_, fun ht h0 r hr => ?_, fun ht h1 r hr => ?_⟩
  · obtain ⟨head, bytes, hhead, ⟨hs, -, field, rfl, hfield⟩, hm, hi⟩ := Instruction.tail_of_fetch h.fetched
    have hnone : i.store = none := by
      rw [← Option.isNone_iff_eq_none, ← Option.not_isSome, hs, hstores]
      rfl
    rw [hb] at hfield
    rw [hnone] at hm hi
    exact ⟨head, field, hhead, hfield, hm, congrArg Instruction.nextPc hi⟩
  · have happly : (Effect.of ready op i values).apply ready = ⟨.ok (), ready, []⟩ := by
      rw [heffect, Effect.branch_of_ne hb (mt htaken.1 hnot)]
      rfl
    have hstep := h.step_ok happly
    rw [if_neg hquit, h.executed_eq] at hstep
    exact ⟨congrArg Report.result hstep, congrArg Report.machine hstep⟩
  · have happly : (Effect.of ready op i values).apply ready =
        ⟨.ok (), { ready with pc := jumpTarget i.nextPc b.offset }, []⟩ := by
      rw [heffect, Effect.branch_of_eq hb (htaken.2 ht), if_neg h0, if_neg h1]
      rfl
    have hstep := h.step_ok happly
    rw [if_neg hquit] at hstep
    refine ⟨congrArg Report.result hstep, _, toNat_jumpTarget i.nextPc b.offset, ?_⟩
    rw [← h.executed_eq]
    exact congrArg Report.machine hstep
  · have hleave : Effect.of ready op i values = .leave 0 := by
      rw [heffect, Effect.branch_of_eq hb (htaken.2 ht), if_pos h0]
    exact h.step_of_leave hleave hquit hr rfl (fun _ => rfl) (by decide)
  · have hleave : Effect.of ready op i values = .leave 1 := by
      rw [heffect, Effect.branch_of_eq hb (htaken.2 ht), h1]
      rfl
    exact h.step_of_leave hleave hquit hr rfl (fun _ => rfl) (by decide)

/-- A story that compares two numbers and branches as far back as it can. -/
def plunge : Array UInt8 :=
  #[3, 0, 0, 1, 0, 34, 0, 34, 0, 34, 0, 34, 0, 16, 0, 34, 0, 0, 48, 48, 48, 48, 48, 48, 0, 34, 0, 0, 0, 0, 0, 0, 0, 0,
    0xC2, 0x1F, 0xFF, 0xFE, 0x01, 0xA0, 0x00]

theorem plunge_branches :
    ∃ m i ready, load plunge = .ok m ∧ m.Performs i .jl [0xFFFE, 1] ready ∧
      (∃ b, i.branch = some b ∧ m.Branches i b (Operation.Condition .jl [0xFFFE, 1]) ready) ∧
      i.branch = some ⟨true, -8192⟩ ∧ m.step.machine.pc = 4294959143 :=
  ⟨_, _, _, rfl, ⟨rfl, by decide, rfl⟩, conditional_branch_as_encoded ⟨rfl, by decide, rfl⟩ (by decide), by decide,
    by decide⟩

end Machine

end ZMachine
