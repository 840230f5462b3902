import ZMachine.Proofs.Checked.Fetch
import ZMachine.Proofs.Checked.Perform
import ZMachine.Proofs.Session
import ZMachine.Proofs.StaticMemory

/-!
# Checked runs

A whole step with all checks made, and a run of such steps.  However hostile the story, no check ever fails, and the
machine is the one that the unchecked steps lead to.

* `Checked.operandValues`, `Checked.execute`, `Checked.step`: the stages of a step;
* `Checked.step_eq`: a step is not stopped;
* `Checked.after`: a run;
* `Machine.run_not_stopped`: no run of any story is stopped.
-/

namespace ZMachine

namespace Checked

variable {m : Machine} {i : Instruction} {op : Operation}

/-! ### The values of operands -/

/-- The value of an operand. -/
def operandValue (m : Machine) : Operand → Option (Report Fault UInt16)
  | .large value => return ⟨.ok value, m, []⟩
  | .small value => return ⟨.ok value.toUInt16, m, []⟩
  | .var .stack => pop m
  | .var source => do
    let value ← (valueOf m source).run
    return ⟨value, m, []⟩

/-- The values of operands, from left to right. -/
def operandValues : List Operand → Machine → Option (Report Fault (List UInt16))
  | [], m => return ⟨.ok [], m, []⟩
  | operand :: operands, m => do
    andThen (← operandValue m operand) fun value m => do
      andThen (← operandValues operands m) fun values m => return ⟨.ok (value :: values), m, []⟩

theorem operandValue_eq {operand : Operand} (h : operand.Numbered) (m : Machine) :
    operandValue m operand = some ((Action.operandValue operand).report m) := by
  cases operand with
  | large value | small value => rfl
  | var source =>
    obtain ⟨number, rfl⟩ := h
    have hpass : (valueOf m (.ofNumber number)).run = some (m.valueOf (.ofNumber number)) := passes_valueOf number
    generalize Variable.ofNumber number = source at hpass
    cases source with
    | stack =>
      show pop m = some (Action.pop.report m)
      rw [pop_eq, Action.report_pop]
    | localSlot slot | globalCell index =>
      show (valueOf m _).run.bind _ = _
      rw [hpass]
      rfl

theorem operandValues_eq {operands : List Operand} (h : ∀ operand ∈ operands, operand.Numbered) (m : Machine) :
    operandValues operands m = some ((Action.operandValues operands).report m) := by
  induction operands generalizing m with
  | nil => rfl
  | cons operand operands ih =>
    have hfirst := operandValue_eq (h operand List.mem_cons_self) m
    have hrest := ih fun operand hmem => h operand (List.mem_cons_of_mem _ hmem)
    show (operandValue m operand).bind _ = _
    unfold Action.operandValues
    rw [hfirst, Action.report_bind]
    refine andThen_eq fun value _ => ?_
    show (operandValues operands _).bind _ = _
    rw [hrest, Action.report_bind]
    exact andThen_eq fun values _ => rfl

/-! ### Steps -/

/-- The variable that takes the result of an instruction. -/
def target (i : Instruction) : Option (Option Variable) :=
  match i.store with
  | none => return none
  | some number => do
    let result ← variableOf number
    return some result

/-- Perform an instruction. -/
def execute (m : Machine) (i : Instruction) (op : Operation) : Option (Report Fault Progress) :=
  if i.operands.length < op.entry.minOperands then
    return ⟨.error (.missingOperands op.name op.entry.minOperands i.operands.length), m, []⟩
  else do
    let operands ← slice (padded (.small 0) i.operands) i.operands.length
    andThen (← operandValues operands { m with pc := i.nextPc }) fun values m => do
      let values ← slice (padded 0 values) i.operands.length
      let _target ← target i
      andThen ⟨.ok (), m, [.decoded i op values]⟩ fun _ m => do
        andThen (← perform m op i values) fun _ m => return ⟨.ok (if op = .quit then .quit else .running), m, []⟩

/-- Fetch and perform the instruction at the current address. -/
def executeNext (m : Machine) : Option (Report Fault Progress) := do
  match ← (fetch m.memory m.pc.toNat).run with
  | .error fault => return ⟨.error fault, m, []⟩
  | .ok (i, op) => execute m i op

/-- Fetch and perform one instruction, and count it if it succeeds. -/
def step (m : Machine) : Option (Report Failure Progress) := do
  match ← executeNext m with
  | ⟨.ok progress, m', events⟩ =>
    let executed ← sum UInt64.size m'.executed 1
    return ⟨.ok progress, { m' with executed }, events⟩
  | ⟨.error fault, m', events⟩ =>
    return ⟨.error ⟨m.pc, m'.calls.depth, m'.executed, fault⟩, { m' with pc := m.pc }, events⟩

/-- Take a number of steps, whatever each of them comes to. -/
def after (m : Machine) : Nat → Option Machine
  | 0 => some m
  | n + 1 => do
    let m' ← after m n
    let r ← step m'
    return r.machine

theorem target_eq (i : Instruction) : target i = some i.target := by
  unfold target Instruction.target
  cases i.store with
  | none => rfl
  | some number =>
    dsimp only
    rw [variableOf_eq]
    rfl

theorem execute_eq (hm : m.Bounded) (hf : Instruction.fetch m.memory m.pc.toNat = .ok (i, op)) :
    execute m i op = some ((Action.execute i op).report m) := by
  have hnumbered := Instruction.numbered_of_fetch hm.size hf
  have hlimit := (Instruction.suits_of_fetch hf).operands_le
  have hbranch : ∀ b, i.branch = some b → -0x8000 ≤ b.offset ∧ b.offset < 0x8000 := by
    intro b hb
    have hbounds := Instruction.offset_bounds hm.size hf hb
    omega
  unfold execute Action.execute
  by_cases henough : i.operands.length < op.entry.minOperands
  · rw [if_pos henough, if_pos henough]
    rfl
  · rw [if_neg henough, if_neg henough, slice_padded hlimit]
    simp only [Option.bind_eq_bind, Option.bind_some, operandValues_eq hnumbered, Action.report_bind,
      Action.report_setPc, Action.report_log, Action.report_emit, Report.andThen_ok_nil]
    refine andThen_eq fun values hvalues => ?_
    -- reading operands gives a value for each of them, and leaves memory and objects alone
    obtain ⟨n, result, -, hread, hlength, -⟩ := Action.report_operandValues i.operands { m with pc := i.nextPc }
    rw [hread] at hvalues ⊢
    have hvalues : values.length = i.operands.length := hlength values hvalues
    have hm' : Machine.Bounded { m with pc := i.nextPc, calls := m.calls.discard n } := ⟨hm.size, hm.table⟩
    rw [← hvalues, slice_padded (by omega), target_eq]
    simp only [Option.bind_some]
    refine andThen_eq fun _ _ => ?_
    rw [perform_eq hm' hbranch (by omega), Action.report_perform]
    exact andThen_eq fun _ _ => rfl

theorem executeNext_eq (hm : m.Bounded) : executeNext m = some (Action.executeNext.report m) := by
  have hpass : (fetch m.memory m.pc.toNat).run = some (Instruction.fetch m.memory m.pc.toNat) :=
    passes_fetch hm.size m.pc.toNat_lt
  unfold executeNext Action.executeNext
  rw [hpass, Action.report_bind, Action.report_fetch]
  rcases hf : Instruction.fetch m.memory m.pc.toNat with fault | ⟨i, op⟩
  · rfl
  · simp only [Option.bind_eq_bind, Option.bind_some, Report.andThen_ok_nil]
    exact execute_eq hm hf

/-- **A step is not stopped**, and comes to the same as an unchecked one. -/
theorem step_eq (hm : m.Bounded) (hcount : m.executed + 1 < UInt64.size) : step m = some m.step.report := by
  unfold step
  rw [executeNext_eq hm]
  rcases hr : Action.executeNext.report m with ⟨fault | progress, m', events⟩
  · rw [Machine.step_of_error hr]
    rfl
  · have hs := Machine.step_of_ok hr
    -- performing the instruction has not counted anything yet
    have hexecuted : m'.executed + 1 ≤ m.executed + 1 := by
      have hbounds := m.executed_step_bounds.2
      have hmachine : m.step.machine = { m' with executed := m'.executed + 1 } := congrArg Report.machine hs
      rw [hmachine] at hbounds
      exact hbounds
    rw [hs]
    simp only [Option.bind_eq_bind, Option.bind_some]
    rw [sum_eq (by omega)]
    rfl

/-- A run of bounded machines that do not come to the end of their counters is not stopped. -/
theorem after_eq {n : Nat} (hm : ∀ k, k < n → (m.after k).Bounded) (hcount : m.executed + n < UInt64.size) :
    after m n = some (m.after n) := by
  induction n with
  | zero => rfl
  | succ n ih =>
    have hn := m.executed_after_le n
    have hrun := ih (fun k hk => hm k (by omega)) (by omega)
    show (after m n).bind _ = _
    rw [hrun]
    show (step (m.after n)).bind _ = _
    rw [step_eq (hm n (by omega)) (by omega)]
    rfl

end Checked

/-! ### Stories -/

namespace Machine

variable {m : Machine}

/-- A machine stays within bounds, since neither its image nor its object table changes. -/
theorem bounded_after {bytes : Array UInt8} (hload : load bytes = .ok m) (hmax : bytes.size < UInt32.size) (n : Nat) :
    (m.after n).Bounded := by
  obtain ⟨hm, hbytes, -, -⟩ := load_spec hload
  have hintact := (Intact.invariant m).after (.refl m) n
  have hobjects : m.objects = .table (.ofHeader m.header) := by
    rw [hm]
    rfl
  refine ⟨?_, ?_⟩
  · rw [hintact.memory.size, Memory.size, hbytes]
    exact hmax
  · intro t ht
    rw [hintact.objects _ hobjects] at ht
    cases ht
    exact m.header.objects.toNat_lt

/-- **No run of any story is stopped.**  Every file of at least 34 and fewer than 2³² bytes can be loaded; in fewer than 2⁶⁴
steps from there no access is out of range and no sum, difference or product of a fixed width leaves its range, and each
step comes to what it comes to without these checks.  And whenever a session goes on for a while, the instructions
completed in that time can be told from the two counts. -/
theorem run_not_stopped {bytes : Array UInt8} (hmin : headerSize ≤ bytes.size) (hmax : bytes.size < UInt32.size) :
    ∃ m, load bytes = .ok m ∧
      (∀ n, n < UInt64.size → Checked.after m n = some (m.after n)) ∧
      (∀ n, n + 1 < UInt64.size → Checked.step (m.after n) = some (m.after n).step.report) ∧
      ∀ (s : Session) (budget : Nat), ∃ count, count ≤ budget ∧
        Checked.difference (s.advance budget).2.machine.executed s.machine.executed = some count := by
  obtain ⟨m, hload⟩ := exists_load hmin
  have hstart : m.executed = 0 := by
    obtain ⟨hm, -⟩ := load_spec hload
    rw [hm]
    rfl
  refine ⟨m, hload, ?_, ?_, ?_⟩
  · intro n hn
    exact Checked.after_eq (fun k _ => bounded_after hload hmax k) (by omega)
  · intro n hn
    have hcount := m.executed_after_le n
    exact Checked.step_eq (bounded_after hload hmax n) (by omega)
  · intro s budget
    obtain ⟨n, hn, hadvance⟩ := s.machine_advance budget
    rw [hadvance]
    have hle := s.machine.executed_after_le n
    refine ⟨_, ?_, Checked.difference_eq (s.machine.executed_mono n)⟩
    omega

/-- A story that jumps far below its first byte, where addresses wrap. -/
def stray : Array UInt8 :=
  #[3, 0, 0, 1, 0, 34, 0, 34, 0, 34, 0, 34, 0, 16, 0, 34, 0, 0, 48, 48, 48, 48, 48, 48, 0, 34, 0, 0, 0, 0, 0, 0, 0, 0,
    0x8C, 0x80, 0x00]

theorem stray_not_stopped :
    ∃ m, load stray = .ok m ∧ (m.after 1).pc = 0xFFFF8023 ∧
      (m.after 1).step.result = .error ⟨0xFFFF8023, 1, 1, .truncated .opcode 0xFFFF8024 37⟩ ∧
      Checked.after m 2 = some (m.after 2) := by
  obtain ⟨m, hload, hrun, -⟩ := run_not_stopped (show headerSize ≤ stray.size by decide) (by decide)
  cases hload
  exact ⟨_, rfl, rfl, rfl, hrun 2 (by decide)⟩

end Machine

end ZMachine
