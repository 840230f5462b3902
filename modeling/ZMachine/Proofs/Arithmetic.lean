import Mathlib.Algebra.Group.Int.Defs
import Mathlib.Algebra.Group.Nat.Defs
import ZMachine.Proofs.Bracketing

/-!
# Arithmetic

Five operations compute with two words read as signed numbers.  A sum, difference or product is kept modulo 65536.  A
quotient is cut toward zero and fits in a word, but for that of -32768 by -1; the remainder goes with it.

* `Word.signed_add`, `Word.signed_sub`, `Word.signed_mul`, `Word.signed_quotient`, `Word.signed_residue`: words under the
  operations, read as signed numbers;
* `Word.mul_quotient_add_residue`: the law that ties quotient and remainder together;
* `Operation.Computes`, `Operation.computes_of_calculate?`: the word that each operation has to come to, and does;
* `Machine.Calculates`, `Machine.arithmetic_exact`: what a step does with one of these operations.
-/

namespace ZMachine

/-! ### Signed words -/

namespace Word

theorem signed_eq (w : UInt16) : signed w = if w.toNat < 32768 then (w.toNat : Int) else w.toNat - 65536 := by
  show w.toBitVec.toInt = _
  rw [BitVec.toInt_eq_toNat_cond]
  show (if 2 * w.toNat < 65536 then (w.toNat : Int) else w.toNat - 65536) = _
  split <;> split <;> omega

/-- The signed reading of a word differs from the plain one by nothing or by 65536. -/
theorem signed_emod (w : UInt16) : signed w % 2 ^ 16 = w.toNat := by
  have hlt := w.toNat_lt
  rw [signed_eq]
  split <;> omega

theorem eq_of_signed_emod {v w : UInt16} (h : signed v % 2 ^ 16 = signed w % 2 ^ 16) : v = w := by
  rw [signed_emod, signed_emod] at h
  exact UInt16.toNat_inj.1 (Int.ofNat.inj h)

theorem signed_eq_zero_iff {w : UInt16} : signed w = 0 ↔ w = 0 := by
  constructor
  · intro h
    apply eq_of_signed_emod
    rw [h]
    rfl
  · rintro rfl
    rfl

variable (a b : UInt16)

theorem signed_add : signed (a + b) % 2 ^ 16 = (signed a + signed b) % 2 ^ 16 := by
  rw [Int.add_emod, signed_emod, signed_emod, signed_emod, UInt16.toNat_add]
  omega

theorem signed_sub : signed (a - b) % 2 ^ 16 = (signed a - signed b) % 2 ^ 16 := by
  have hlt := b.toNat_lt
  rw [Int.sub_emod, signed_emod, signed_emod, signed_emod, UInt16.toNat_sub]
  omega

theorem signed_mul : signed (a * b) % 2 ^ 16 = signed a * signed b % 2 ^ 16 := by
  rw [Int.mul_emod, signed_emod, signed_emod, signed_emod, UInt16.toNat_mul]
  rfl

/-! ### Quotient and remainder -/

/-- The word of the signed quotient. -/
def quotient : UInt16 :=
  (a.toInt16 / b.toInt16).toUInt16

/-- The word of the remainder of the signed quotient. -/
def residue : UInt16 :=
  (a.toInt16 % b.toInt16).toUInt16

theorem signed_quotient : signed (quotient a b) = ((signed a).tdiv (signed b)).bmod (2 ^ 16) := by
  show (a.toInt16 / b.toInt16).toUInt16.toInt16.toInt = _
  rw [Int16.toInt16_toUInt16, Int16.toInt_div]
  rfl

theorem signed_residue : signed (residue a b) = (signed a).tmod (signed b) := by
  show (a.toInt16 % b.toInt16).toUInt16.toInt16.toInt = _
  rw [Int16.toInt16_toUInt16, Int16.toInt_mod]
  rfl

/-- Only one quotient of two words does not fit in a word. -/
theorem tdiv_mem (h : ¬(signed a = -32768 ∧ signed b = -1)) :
    -32768 ≤ (signed a).tdiv (signed b) ∧ (signed a).tdiv (signed b) ≤ 32767 := by
  have hlow : -32768 ≤ signed a := a.toInt16.le_toInt
  have hhigh : signed a < 32768 := a.toInt16.toInt_lt
  have habs : ((signed a).tdiv (signed b)).natAbs = (signed a).natAbs / (signed b).natAbs := Int.natAbs_tdiv _ _
  by_cases hone : (signed b).natAbs ≤ 1
  · have hcases : signed b = 0 ∨ signed b = 1 ∨ signed b = -1 := by omega
    rcases hcases with hb | hb | hb
    · rw [hb, Int.tdiv_zero]
      omega
    · rw [hb, Int.tdiv_one]
      omega
    · rw [hb, Int.tdiv_neg, Int.tdiv_one]
      omega
  · -- a divisor of more than one halves the dividend at least
    have hhalf : (signed a).natAbs / (signed b).natAbs ≤ (signed a).natAbs / 2 :=
      Nat.div_le_div_left (by omega) (by omega)
    omega

theorem signed_quotient_of_fits (h : ¬(signed a = -32768 ∧ signed b = -1)) :
    signed (quotient a b) = (signed a).tdiv (signed b) := by
  obtain ⟨hlow, hhigh⟩ := tdiv_mem a b h
  rw [signed_quotient, Int.bmod_eq_of_le (by omega) (by omega)]

theorem signed_quotient_of_overflow (ha : signed a = -32768) (hb : signed b = -1) :
    signed (quotient a b) = -32768 := by
  rw [signed_quotient, ha, hb]
  rfl

/-- **Quotient and remainder give back the dividend**, modulo 65536, also where the quotient does not fit. -/
theorem mul_quotient_add_residue : b * quotient a b + residue a b = a := by
  apply eq_of_signed_emod
  have hquotient : signed (quotient a b) % 2 ^ 16 = (signed a).tdiv (signed b) % 2 ^ 16 := by
    rw [signed_quotient]
    exact Int.bmod_emod
  calc signed (b * quotient a b + residue a b) % 2 ^ 16
      = (signed b * signed (quotient a b) % 2 ^ 16 + signed (residue a b)) % 2 ^ 16 := by
        rw [signed_add, Int.add_emod, signed_mul, ← Int.add_emod, Int.emod_add_emod]
    _ = (signed b * (signed a).tdiv (signed b) % 2 ^ 16 + (signed a).tmod (signed b)) % 2 ^ 16 := by
        rw [Int.mul_emod, hquotient, ← Int.mul_emod, signed_residue]
    _ = signed a % 2 ^ 16 := by
        rw [Int.emod_add_emod, Int.mul_tdiv_add_tmod]

end Word

/-! ### What the operations compute -/

/-- A word is the one, and the only one, that has a number as its signed reading modulo 65536. -/
def Word.IsOnly (w : UInt16) (n : Int) : Prop :=
  ∀ v, Word.signed v % 2 ^ 16 = n % 2 ^ 16 ↔ v = w

theorem Word.isOnly_of_emod {w : UInt16} {n : Int} (h : signed w % 2 ^ 16 = n % 2 ^ 16) : IsOnly w n := by
  intro v
  rw [← h]
  exact ⟨eq_of_signed_emod, fun hv => by rw [hv]⟩

namespace Operation

/-- The operations that compute with signed words. -/
def arithmetic : List Operation :=
  [.add, .sub, .mul, .div, .mod]

/-- What an arithmetic operation must come to, given the words of its operands. -/
def Computes (a b word : UInt16) : Operation → Prop
  | .add => Word.IsOnly word (Word.signed a + Word.signed b)
  | .sub => Word.IsOnly word (Word.signed a - Word.signed b)
  | .mul => Word.IsOnly word (Word.signed a * Word.signed b)
  | .div =>
    if Word.signed a = -32768 ∧ Word.signed b = -1 then Word.signed word = -32768
    else Word.signed word = (Word.signed a).tdiv (Word.signed b)
  | .mod =>
    (Word.signed word = 0 ∨ (Word.signed word).sign = (Word.signed a).sign) ∧
      (Word.signed word).natAbs < (Word.signed b).natAbs ∧
      (Word.signed a = -32768 → Word.signed b = -1 → Word.signed word = 0)
  | _ => False

/-- What an arithmetic operation comes to. -/
def calculate? (a b : UInt16) : Operation → Option (Except Fault UInt16)
  | .add => some (.ok (a + b))
  | .sub => some (.ok (a - b))
  | .mul => some (.ok (a * b))
  | .div => some (Word.divide a b)
  | .mod => some (Word.remainder a b)
  | _ => none

variable {op : Operation} {a b word : UInt16}

theorem computes_div (a b : UInt16) : Computes a b (Word.quotient a b) .div := by
  by_cases h : Word.signed a = -32768 ∧ Word.signed b = -1
  · exact (if_pos h).mpr (Word.signed_quotient_of_overflow a b h.1 h.2)
  · exact (if_neg h).mpr (Word.signed_quotient_of_fits a b h)

theorem computes_mod (hb : b ≠ 0) : Computes a b (Word.residue a b) .mod := by
  unfold Computes
  rw [Word.signed_residue]
  refine ⟨?_, ?_, fun ha hb => ?_⟩
  · rw [← Int.sign_eq_zero_iff_zero, Int.sign_tmod]
    split
    · exact .inl rfl
    · exact .inr rfl
  · rw [Int.natAbs_tmod]
    have hpos : Word.signed b ≠ 0 := mt Word.signed_eq_zero_iff.1 hb
    exact Nat.mod_lt _ (Int.natAbs_pos.2 hpos)
  · rw [ha, hb]
    rfl

/-- **Each arithmetic operation computes the word that it must.** -/
theorem computes_of_calculate? (h : op.calculate? a b = some (.ok word)) : op.Computes a b word := by
  cases op with
  | add =>
    cases h
    exact Word.isOnly_of_emod (Word.signed_add a b)
  | sub =>
    cases h
    exact Word.isOnly_of_emod (Word.signed_sub a b)
  | mul =>
    cases h
    exact Word.isOnly_of_emod (Word.signed_mul a b)
  | div =>
    obtain ⟨-, rfl⟩ := guarded_eq_ok_iff.1 (Option.some.inj h)
    exact computes_div a b
  | mod =>
    obtain ⟨hb, rfl⟩ := guarded_eq_ok_iff.1 (Option.some.inj h)
    exact computes_mod hb
  | _ => cases h

/-- **The only fault of an arithmetic operation** is a division by zero. -/
theorem calculate?_eq_error_iff {fault : Fault} :
    op.calculate? a b = some (.error fault) ↔ (op = .div ∨ op = .mod) ∧ b = 0 ∧ fault = .divisionByZero := by
  have hguard : ∀ word : UInt16, (if b = 0 then Except.error .divisionByZero else .ok word) = .error fault ↔
      b = 0 ∧ fault = .divisionByZero := by
    intro word
    by_cases hb : b = 0
    · simp [hb, eq_comm]
    · simp [hb]
  cases op <;> simp [calculate?, Word.divide, Word.remainder, hguard]

theorem exists_calculate? (h : op ∈ arithmetic) (a b : UInt16) : ∃ result, op.calculate? a b = some result := by
  simp only [arithmetic, List.mem_cons, List.not_mem_nil, or_false] at h
  rcases h with rfl | rfl | rfl | rfl | rfl <;> exact ⟨_, rfl⟩

/-- The quotient and the remainder that are computed of the same words give back the first of them. -/
theorem mul_add_of_calculate? {q r : UInt16} (hq : calculate? a b .div = some (.ok q))
    (hr : calculate? a b .mod = some (.ok r)) : (b.toNat * q.toNat + r.toNat) % 2 ^ 16 = a.toNat := by
  obtain ⟨-, rfl⟩ := guarded_eq_ok_iff.1 (Option.some.inj hq)
  obtain ⟨-, rfl⟩ := guarded_eq_ok_iff.1 (Option.some.inj hr)
  have hlaw := congrArg UInt16.toNat (Word.mul_quotient_add_residue a b)
  rw [UInt16.toNat_add, UInt16.toNat_mul, Nat.mod_add_mod] at hlaw
  exact hlaw

end Operation

theorem Effect.of_calculate? {m : Machine} {op : Operation} {i : Instruction} {a b : UInt16} {others : List UInt16}
    {result : Except Fault UInt16} (h : op.calculate? a b = some result) :
    of m op i (a :: b :: others) = Effect.result i result := by
  cases op with
  | add | sub | mul | div | mod =>
    cases h
    rfl
  | _ => cases h

/-! ### Steps -/

namespace Machine

variable {m ready : Machine} {i : Instruction} {op : Operation} {a b : UInt16} {others : List UInt16}

/-- A variable refuses a value for reasons of its own. -/
theorem ne_divisionByZero_of_write? {target : Variable} {value : UInt16} {fault : Fault}
    (h : m.write? target value = .error fault) : fault ≠ .divisionByZero := by
  cases target with
  | stack =>
    have hpush := map_eq_error_iff.1 h
    unfold Frame.push at hpush
    split at hpush <;> cases hpush
    nofun
  | localSlot slot =>
    have hwrite := map_eq_error_iff.1 h
    unfold Frame.writeLocal at hwrite
    split at hwrite <;> cases hwrite
    nofun
  | globalCell index =>
    obtain ⟨k, rfl | rfl⟩ := Memory.fault_of_writeWord (map_eq_error_iff.1 h)
    · nofun
    · nofun

/-- A step stores a word where its instruction says, once the operands have been read, and does nothing else. -/
structure StoresResult (m : Machine) (i : Instruction) (ready : Machine) (word : UInt16) : Prop where
  result : m.step.result = .ok .running
  received : ∃ number, i.store = some number ∧ ready.Receives number word m.step.machine ∧
    ∃ op values, m.step.events = [.decoded i op values, .stored (.ofNumber number) word]
  others : m.step.machine =
    { ready with memory := m.step.machine.memory, calls := m.step.machine.calls, executed := m.executed + 1 }

/-- What a step does with an arithmetic operation on two words. -/
structure Calculates (m : Machine) (i : Instruction) (op : Operation) (a b : UInt16) (ready : Machine) : Prop where
  /-- Up to the computation, all that happens is that the operands on the stack are taken off. -/
  read : ready = { m with pc := i.nextPc, calls := m.calls.discard (i.operands.count (.var .stack)) }
  /-- A division by zero is the only failure of the computation itself. -/
  byZero_iff : (∃ failure, m.step.result = .error failure ∧ failure.cause = .divisionByZero) ↔
    (op = .div ∨ op = .mod) ∧ b = 0
  /-- It stores nothing. -/
  byZero : (op = .div ∨ op = .mod) → b = 0 → m.step.machine = { ready with pc := m.pc } ∧
    ∀ target word, .stored target word ∉ m.step.events
  stores : m.step.result.isOk → ∃ word, m.StoresResult i ready word
  /-- All other failures are those of the variable that takes the result. -/
  refused : ¬((op = .div ∨ op = .mod) ∧ b = 0) → ¬m.step.result.isOk → ∃ number word fault, i.store = some number ∧
    op.Computes a b word ∧ (Action.writeVariable (.ofNumber number) word).report ready = ⟨.error fault, ready, []⟩ ∧
    m.step.result = .error (m.failure fault)
  computes : ∀ word, m.StoresResult i ready word → op.Computes a b word
  /-- The quotient fits the remainder that any other step stores of the same words. -/
  divides : op = .div → ∀ q, m.StoresResult i ready q → ∀ (k : Machine) j others ready' r,
    k.Performs j .mod (a :: b :: others) ready' → k.StoresResult j ready' r →
      (b.toNat * q.toNat + r.toNat) % 2 ^ 16 = a.toNat

theorem rest_of_write? {m m' : Machine} {target : Variable} {value : UInt16} (h : m.write? target value = .ok m') :
    m' = { m with memory := m'.memory, calls := m'.calls } := by
  cases sets_of_write? h <;> rfl

namespace Performs

/-- A step whose effect fails at once leaves the machine as it was after reading the operands, but for the address. -/
theorem step_of_fail {values : List UInt16} {fault : Fault} (h : m.Performs i op values ready)
    (he : (Effect.of ready op i values).apply ready = ⟨.error fault, ready, []⟩) :
    m.step.report = ⟨.error (m.failure fault), { ready with pc := m.pc }, [.decoded i op values]⟩ := by
  rw [h.step_error he, failure, h.depth_eq, h.executed_eq]

/-- A step that computes a word gives it to the variable that its instruction names. -/
theorem apply_of_calculate? {word : UInt16} (h : m.Performs i op (a :: b :: others) ready)
    (hr : op.calculate? a b = some (.ok word)) :
    ∃ number, i.store = some number ∧ (Effect.of ready op i (a :: b :: others)).apply ready =
      .attempt ready [.stored (.ofNumber number) word] (ready.write? (.ofNumber number) word) := by
  have hstores : op.entry.stores = true := by
    cases op with
    | add | sub | mul | div | mod => rfl
    | _ => cases hr
  obtain ⟨number, hnumber⟩ := Option.isSome_iff_exists.1 (h.suits.store.trans hstores)
  refine ⟨number, hnumber, ?_⟩
  rw [Effect.of_calculate? hr, Effect.result, Instruction.target, hnumber]
  rfl

/-- A word that its variable takes is the result of the step. -/
theorem storesResult {m' : Machine} {values : List UInt16} {word : UInt16} {number : UInt8}
    (h : m.Performs i op values ready) (hop : op ≠ .quit) (hnumber : i.store = some number)
    (hw : ready.write? (.ofNumber number) word = .ok m')
    (he : (Effect.of ready op i values).apply ready = ⟨.ok (), m', [.stored (.ofNumber number) word]⟩) :
    m.StoresResult i ready word := by
  have hstep := h.step_ok he
  rw [if_neg hop] at hstep
  have hmachine : m.step.machine = { m' with executed := m'.executed + 1 } := congrArg Report.machine hstep
  have hreceives := receives_of_write? hw
  refine ⟨congrArg Report.result hstep, ⟨number, hnumber, ?_, op, values, congrArg Report.events hstep⟩, ?_⟩
  · rw [hmachine]
    exact ⟨hreceives.onStack, hreceives.inLocal, hreceives.inGlobal⟩
  · rw [hmachine, rest_of_write? hw, h.executed_eq]

/-- **What a step comes to that performs an arithmetic operation**: a division by zero, a word that is stored, or a word
that its variable refuses. -/
theorem arithmetic_cases (h : m.Performs i op (a :: b :: others) ready) (hop : op ∈ Operation.arithmetic) :
    (((op = .div ∨ op = .mod) ∧ b = 0) ∧ m.step.report =
        ⟨.error (m.failure .divisionByZero), { ready with pc := m.pc }, [.decoded i op (a :: b :: others)]⟩) ∨
      (¬((op = .div ∨ op = .mod) ∧ b = 0) ∧ ∃ word number, op.calculate? a b = some (.ok word) ∧
        i.store = some number ∧ (m.StoresResult i ready word ∨
          ∃ fault, ready.write? (.ofNumber number) word = .error fault ∧ m.step.result = .error (m.failure fault))) := by
  obtain ⟨result, hr⟩ := Operation.exists_calculate? hop a b
  cases result with
  | error fault =>
    obtain ⟨hdivision, hb, rfl⟩ := Operation.calculate?_eq_error_iff.1 hr
    exact .inl ⟨⟨hdivision, hb⟩, h.step_of_fail (by rw [Effect.of_calculate? hr]; rfl)⟩
  | ok word =>
    right
    constructor
    · rintro ⟨hdivision, hb⟩
      have hfails := (Operation.calculate?_eq_error_iff (a := a)).2 ⟨hdivision, hb, rfl⟩
      rw [hr] at hfails
      cases hfails
    · have hquit : op ≠ .quit := by
        rintro rfl
        exact absurd hop (by decide)
      obtain ⟨number, hnumber, he⟩ := h.apply_of_calculate? hr
      refine ⟨word, number, hr, hnumber, ?_⟩
      cases hw : ready.write? (.ofNumber number) word with
      | ok m' =>
        rw [hw] at he
        exact .inl (h.storesResult hquit hnumber hw he)
      | error fault =>
        rw [hw] at he
        exact .inr ⟨fault, rfl, congrArg Report.result (h.step_of_fail he)⟩

end Performs

/-- What a step has stored is what it has reported. -/
theorem StoresResult.unique {word word' : UInt16} (hs : m.StoresResult i ready word)
    (hs' : m.StoresResult i ready word') : word = word' := by
  obtain ⟨number, -, -, op, values, hevents⟩ := hs.received
  obtain ⟨number', -, -, op', values', hevents'⟩ := hs'.received
  rw [hevents] at hevents'
  simp only [List.cons.injEq, Event.stored.injEq] at hevents'
  exact hevents'.2.1.2

/-- A step that stores a word as its result has computed it. -/
theorem StoresResult.calculated {word : UInt16} (hs : m.StoresResult i ready word)
    (h : m.Performs i op (a :: b :: others) ready) (hop : op ∈ Operation.arithmetic) :
    op.calculate? a b = some (.ok word) := by
  rcases h.arithmetic_cases hop with ⟨-, hstep⟩ | ⟨-, word', number, hword, -, hs' | ⟨fault, -, hresult⟩⟩
  · cases hs.result.symm.trans (congrArg Report.result hstep)
  · rw [hs.unique hs']
    exact hword
  · cases hs.result.symm.trans hresult

/-- **Arithmetic is exact on signed words.**  Take a machine that gets to perform an arithmetic operation on two words.  A
sum, difference or product is the one word that has the right value modulo 65536.  A division by zero fails and stores
nothing, and no other computation fails.  A quotient is cut toward zero, but for the one that does not fit, and the
remainder belongs to it.  What is stored goes to the variable that the instruction names, and nowhere else. -/
theorem arithmetic_exact (h : m.Performs i op (a :: b :: others) ready) (hop : op ∈ Operation.arithmetic) :
    m.Calculates i op a b ready := by
  have hcomputes : ∀ word, m.StoresResult i ready word → op.Computes a b word := fun word hs =>
    Operation.computes_of_calculate? (hs.calculated h hop)
  have hdivides : op = .div → ∀ q, m.StoresResult i ready q → ∀ (k : Machine) j others ready' r,
      k.Performs j .mod (a :: b :: others) ready' → k.StoresResult j ready' r →
        (b.toNat * q.toNat + r.toNat) % 2 ^ 16 = a.toNat := by
    rintro rfl q hq k j others' ready' r hk hr
    exact Operation.mul_add_of_calculate? (hq.calculated h hop) (hr.calculated hk (by decide))
  rcases h.arithmetic_cases hop with
    ⟨hzero, hstep⟩ | ⟨hnot, word, number, hword, hnumber, hs | ⟨fault, hw, hresult⟩⟩
  · have hresult : m.step.result = .error (m.failure .divisionByZero) := congrArg Report.result hstep
    have hevents : m.step.events = [.decoded i op (a :: b :: others)] := congrArg Report.events hstep
    refine ⟨h.machine_eq_discard, ⟨fun _ => hzero, fun _ => ⟨_, hresult, rfl⟩⟩, fun _ _ => ?_, fun hok => ?_,
      fun hnot => absurd hzero hnot, hcomputes, hdivides⟩
    · refine ⟨congrArg Report.machine hstep, fun target word hstored => ?_⟩
      rw [hevents] at hstored
      simp at hstored
    · rw [hresult] at hok
      cases hok
  · refine ⟨h.machine_eq_discard, ⟨?_, fun hzero => absurd hzero hnot⟩,
      fun hdivision hb => absurd ⟨hdivision, hb⟩ hnot, fun _ => ⟨word, hs⟩, fun _ hfails => ?_, hcomputes, hdivides⟩
    · rintro ⟨failure, hresult, -⟩
      cases hs.result.symm.trans hresult
    · rw [hs.result] at hfails
      exact absurd rfl hfails
  · refine ⟨h.machine_eq_discard, ⟨?_, fun hzero => absurd hzero hnot⟩,
      fun hdivision hb => absurd ⟨hdivision, hb⟩ hnot, fun hok => ?_, fun _ _ => ?_, hcomputes, hdivides⟩
    · rintro ⟨failure, hfailure, hcause⟩
      cases hresult.symm.trans hfailure
      exact absurd hcause (ne_divisionByZero_of_write? hw)
    · rw [hresult] at hok
      cases hok
    · refine ⟨number, word, fault, hnumber, Operation.computes_of_calculate? hword, ?_, hresult⟩
      rw [Action.report_writeVariable, hw]
      rfl

/-- A story that divides the lowest number by minus one, and keeps the quotient on the stack. -/
def overflowing : Array UInt8 :=
  #[3, 0, 0, 1, 0, 34, 0, 34, 0, 34, 0, 34, 0, 16, 0, 34, 0, 0, 48, 48, 48, 48, 48, 48, 0, 34, 0, 0, 0, 0, 0, 0, 0, 0,
    0xD7, 0x0F, 0x80, 0x00, 0xFF, 0xFF, 0x00]

theorem overflowing_exact :
    ∃ m i ready, load overflowing = .ok m ∧ m.Performs i .div [0x8000, 0xFFFF] ready ∧
      m.Calculates i .div 0x8000 0xFFFF ready ∧ m.step.result = .ok .running ∧
      m.step.machine.calls.current.stack = [0x8000] :=
  ⟨_, _, _, rfl, ⟨rfl, by decide, rfl⟩, arithmetic_exact ⟨rfl, by decide, rfl⟩ (by decide), rfl, rfl⟩

end Machine

end ZMachine
