import ZMachine.Proofs.LastWriter
import ZMachine.Proofs.Stages

/-!
# The values of operands

The operands of an instruction are read from left to right, and those on the stack are taken off it, so what one of them
yields might depend on all that stand before it.  It does so only through the number of values that these have taken:
everything else is as it was before the instruction.

* `Machine.worth`: what an operand yields, in terms of the machine before the instruction;
* `Machine.Yields`: what a list of operands yields;
* `Action.report_operandValues_of_yields`, `Action.report_operandValues_of_unreadable`: reading operands comes to that;
* `Machine.exists_yields_iff`: which operands can be read;
* `Machine.operands_read_from_left`: the whole account;
* `Machine.performs_iff_canRead`, `Machine.step_of_unreadable`: what it means for a step.
-/

namespace ZMachine

/-- How many values an operand takes off the stack. -/
def Operand.takes (operand : Operand) : Nat :=
  if operand = .var .stack then 1 else 0

theorem Operand.count_stack_cons (operand : Operand) (operands : List Operand) :
    (operand :: operands).count (.var .stack) = operand.takes + operands.count (.var .stack) := by
  simp only [takes, List.count_cons, beq_iff_eq, Nat.add_comm]

namespace Machine

/-! ### What an operand is worth -/

/-- What an operand yields when a number of values have been taken off the stack of a machine.  On the stack it is the one
below them.  A local that is declared yields what its slot holds, and a global the word at its place in the table of
globals; where a byte of this word is missing, the fault names the first one that is. -/
def worth (m : Machine) (taken : Nat) : Operand → Except Fault UInt16
  | .large value => .ok value
  | .small value => .ok value.toUInt16
  | .var .stack =>
    match m.calls.current.stack[taken]? with
    | some value => .ok value
    | none => .error .stackUnderflow
  | .var (.localSlot slot) =>
    if slot.toNat < m.calls.current.declared.toNat then .ok (m.calls.current.locals[slot.toNat]?.getD 0)
    else .error (.undeclaredLocal (slot + 1) m.calls.current.declared)
  | .var (.globalCell index) =>
    let place := m.header.globals.toNat + 2 * index.toNat
    match m.memory.bytes[place]?, m.memory.bytes[place + 1]? with
    | some high, some low => .ok (UInt16.ofNat (256 * high.toNat + low.toNat))
    | some _, none => .error (.outOfBounds (place + 1) m.memory.bytes.size)
    | none, _ => .error (.outOfBounds place m.memory.bytes.size)

/-- A machine can read operands when a number of values have been taken off its stack: it has values for those on the stack
below them, the locals are declared, and the globals are in memory. -/
structure CanRead (m : Machine) (taken : Nat) (operands : List Operand) : Prop where
  stack : operands.count (.var .stack) + taken ≤ m.calls.current.stack.length
  locals : ∀ slot, .var (.localSlot slot) ∈ operands → slot.toNat < m.calls.current.declared.toNat
  globals : ∀ index, .var (.globalCell index) ∈ operands →
    m.header.globals.toNat + 2 * index.toNat + 1 < m.memory.bytes.size

/-- What operands yield, one after the other, when a number of values have been taken off the stack of a machine. -/
inductive Yields (m : Machine) : Nat → List Operand → List UInt16 → Prop
  | nil {taken : Nat} : Yields m taken [] []
  | cons {taken : Nat} {operand : Operand} {operands : List Operand} {value : UInt16} {values : List UInt16}
      (first : m.worth taken operand = .ok value) (rest : Yields m (taken + operand.takes) operands values) :
      Yields m taken (operand :: operands) (value :: values)

variable {m : Machine} {taken : Nat} {operand : Operand} {operands left right : List Operand} {value : UInt16}
  {values : List UInt16} {fault : Fault}

theorem worth_stack_eq_ok_iff :
    m.worth taken (.var .stack) = .ok value ↔ m.calls.current.stack[taken]? = some value := by
  unfold worth
  cases m.calls.current.stack[taken]? with
  | none => simp
  | some top => simp

/-- A local is worth what the frame reads in its slot. -/
theorem worth_localSlot (m : Machine) (taken : Nat) (slot : UInt8) :
    m.worth taken (.var (.localSlot slot)) = m.calls.current.readLocal slot := by
  unfold worth Frame.readLocal
  rw [Array.getD_eq_getD_getElem?, Vector.getElem?_toArray]
  rfl

/-- A global is worth the word that memory has at its address. -/
theorem worth_globalCell (m : Machine) (taken : Nat) (index : UInt8) :
    m.worth taken (.var (.globalCell index)) = m.memory.readWord (m.globalAddress index) := by
  have haddress : m.globalAddress index = m.header.globals.toNat + 2 * index.toNat := by
    rw [globalAddress, Nat.mul_comm]
  unfold worth Memory.readWord Memory.readByte
  rw [haddress]
  dsimp only
  generalize m.header.globals.toNat + 2 * index.toNat = place
  cases m.memory.bytes[place]? with
  | none => rfl
  | some high =>
    cases m.memory.bytes[place + 1]? with
    | none | some low => rfl

/-- An operand can be read if it is a constant, if there is still a value on the stack for it, if it is a declared local, or
if it is a global within memory. -/
theorem worth_isOk_iff : (m.worth taken operand).isOk ↔
    (operand = .var .stack → taken < m.calls.current.stack.length) ∧
      (∀ slot, operand = .var (.localSlot slot) → slot.toNat < m.calls.current.declared.toNat) ∧
      ∀ index, operand = .var (.globalCell index) →
        m.header.globals.toNat + 2 * index.toNat + 1 < m.memory.bytes.size := by
  cases operand with
  | large value | small value => simp [worth, Except.isOk, Except.toBool]
  | var source =>
    cases source with
    | stack =>
      by_cases h : taken < m.calls.current.stack.length
      · simp [worth, h, Except.isOk, Except.toBool]
      · simp [worth, h, Except.isOk, Except.toBool]
    | localSlot slot =>
      by_cases h : slot.toNat < m.calls.current.declared.toNat
      · simp [worth, h, Except.isOk, Except.toBool]
      · simp [worth, h, Except.isOk, Except.toBool]
    | globalCell index =>
      rw [worth_globalCell, Memory.readWord_isOk_iff, globalAddress, Nat.mul_comm]
      simp [Memory.size]

/-- Operands can be read if the first can and the others can after it. -/
theorem canRead_cons_iff : m.CanRead taken (operand :: operands) ↔
    (m.worth taken operand).isOk ∧ m.CanRead (taken + operand.takes) operands := by
  rw [worth_isOk_iff]
  constructor
  · rintro ⟨hstack, hlocals, hglobals⟩
    rw [Operand.count_stack_cons] at hstack
    refine ⟨⟨?_, fun slot h => ?_, fun index h => ?_⟩, ⟨by omega, fun slot h => ?_, fun index h => ?_⟩⟩
    · rintro rfl
      rw [Operand.takes, if_pos rfl] at hstack
      omega
    · exact hlocals slot (h ▸ List.mem_cons_self)
    · exact hglobals index (h ▸ List.mem_cons_self)
    · exact hlocals slot (List.mem_cons_of_mem _ h)
    · exact hglobals index (List.mem_cons_of_mem _ h)
  · rintro ⟨⟨-, hlocal, hglobal⟩, hstack, hlocals, hglobals⟩
    refine ⟨?_, fun slot h => ?_, fun index h => ?_⟩
    · rw [Operand.count_stack_cons]
      omega
    · rcases List.mem_cons.1 h with h | h
      · exact hlocal slot h.symm
      · exact hlocals slot h
    · rcases List.mem_cons.1 h with h | h
      · exact hglobal index h.symm
      · exact hglobals index h

/-- An operand that can be read takes no more off the stack than is there. -/
theorem add_takes_le (ht : taken ≤ m.calls.current.stack.length) (h : (m.worth taken operand).isOk) :
    taken + operand.takes ≤ m.calls.current.stack.length := by
  unfold Operand.takes
  split
  case isTrue hs => exact (worth_isOk_iff.1 h).1 hs
  case isFalse hs => exact ht

/-! ### What a list of operands yields -/

theorem Yields.length_eq (h : m.Yields taken operands values) : values.length = operands.length := by
  induction h with
  | nil => rfl
  | cons first rest ih => rw [List.length_cons, List.length_cons, ih]

/-- Each operand yields what it is worth after those to the left of it have taken their values. -/
theorem Yields.worth_eq (h : m.Yields taken (left ++ operand :: right) values) :
    ∃ value, values[left.length]? = some value ∧ m.worth (taken + left.count (.var .stack)) operand = .ok value := by
  induction left generalizing taken values with
  | nil =>
    cases h with
    | cons first rest => exact ⟨_, rfl, first⟩
  | cons head left ih =>
    cases h with
    | cons first rest =>
      obtain ⟨value, hvalue, hworth⟩ := ih rest
      refine ⟨value, hvalue, ?_⟩
      rw [Operand.count_stack_cons, ← Nat.add_assoc]
      exact hworth

/-- **Operands yield their values, or there is a leftmost one that cannot be read.** -/
theorem yields_or_unreadable (m : Machine) (taken : Nat) (operands : List Operand) :
    (∃ values, m.Yields taken operands values) ∨
      ∃ left operand right values fault, operands = left ++ operand :: right ∧ m.Yields taken left values ∧
        m.worth (taken + left.count (.var .stack)) operand = .error fault := by
  induction operands generalizing taken with
  | nil => exact .inl ⟨[], .nil⟩
  | cons operand operands ih =>
    cases hworth : m.worth taken operand with
    | error fault => exact .inr ⟨[], operand, operands, [], fault, rfl, .nil, hworth⟩
    | ok value =>
      rcases ih (taken + operand.takes) with ⟨values, hvalues⟩ | ⟨left, stuck, right, values, fault, rfl, hleft, hfault⟩
      · exact .inl ⟨value :: values, .cons hworth hvalues⟩
      · right
        refine ⟨operand :: left, stuck, right, value :: values, fault, rfl, .cons hworth hleft, ?_⟩
        rw [Operand.count_stack_cons, ← Nat.add_assoc]
        exact hfault

/-- Operands yield values if they can be read. -/
theorem exists_yields_iff (ht : taken ≤ m.calls.current.stack.length) :
    (∃ values, m.Yields taken operands values) ↔ m.CanRead taken operands := by
  induction operands generalizing taken with
  | nil =>
    refine ⟨fun _ => ⟨?_, nofun, nofun⟩, fun _ => ⟨[], .nil⟩⟩
    rw [List.count_nil, Nat.zero_add]
    exact ht
  | cons operand operands ih =>
    rw [canRead_cons_iff]
    constructor
    · rintro ⟨_, _ | ⟨first, rest⟩⟩
      have hok : (m.worth taken operand).isOk := by rw [first]; rfl
      exact ⟨hok, (ih (add_takes_le ht hok)).1 ⟨_, rest⟩⟩
    · rintro ⟨hok, hread⟩
      obtain ⟨values, hvalues⟩ := (ih (add_takes_le ht hok)).2 hread
      cases hworth : m.worth taken operand with
      | error fault =>
        rw [hworth] at hok
        cases hok
      | ok value => exact ⟨value :: values, .cons hworth hvalues⟩

end Machine

/-! ### Reading operands -/

namespace Action

open Machine

variable {m : Machine} {taken : Nat} {operand : Operand} {operands left : List Operand} {values : List UInt16}
  {fault : Fault}

theorem report_operandValue_of_ne_stack (taken : Nat) (h : operand ≠ .var .stack) :
    (operandValue operand).report { m with calls := m.calls.discard taken } =
      ⟨m.worth taken operand, { m with calls := m.calls.discard taken }, []⟩ := by
  cases operand with
  | large value | small value => rfl
  | var source =>
    cases source with
    | stack => exact absurd rfl h
    | localSlot slot =>
      rw [worth_localSlot]
      rfl
    | globalCell index =>
      rw [worth_globalCell]
      rfl

/-- Reading one operand after others comes to what it is worth.  Where that is a fault nothing changes. -/
theorem report_operandValue_discard (m : Machine) (taken : Nat) (operand : Operand) :
    (operandValue operand).report { m with calls := m.calls.discard taken } =
      match m.worth taken operand with
      | .ok value => ⟨.ok value, { m with calls := m.calls.discard (taken + operand.takes) }, []⟩
      | .error fault => ⟨.error fault, { m with calls := m.calls.discard taken }, []⟩ := by
  -- only the stack looks different after other operands have been read
  by_cases hs : operand = .var .stack
  · subst hs
    show pop.report { m with calls := m.calls.discard taken } = _
    rw [report_pop]
    rcases Machine.pop_cases { m with calls := m.calls.discard taken } with ⟨hp, hs⟩ | ⟨value, rest, hs, hp⟩
    · have hworth : m.worth taken (.var .stack) = .error .stackUnderflow := by
        rw [worth, List.getElem?_eq_none (List.drop_eq_nil_iff.1 hs)]
      rw [hp, hworth]
    · have htop : m.calls.current.stack[taken]? = some value := by
        rw [← Nat.add_zero taken, ← List.getElem?_drop]
        exact congrArg (·[0]?) hs
      rw [hp, worth_stack_eq_ok_iff.2 htop, CallStack.discard_discard]
      rfl
  · rw [report_operandValue_of_ne_stack taken hs, Operand.takes, if_neg hs, Nat.add_zero]
    cases m.worth taken operand with
    | error fault | ok value => rfl

/-- **Operands that yield values are read**, and are gone from the stack as far as they stood there. -/
theorem report_operandValues_of_yields (h : m.Yields taken operands values) :
    (operandValues operands).report { m with calls := m.calls.discard taken } =
      ⟨.ok values, { m with calls := m.calls.discard (taken + operands.count (.var .stack)) }, []⟩ := by
  induction h with
  | nil => rfl
  | cons first rest ih =>
    unfold operandValues
    rw [report_bind, report_operandValue_discard, first]
    simp only [Report.andThen_ok_nil, report_bind, ih, report_pure]
    rw [Operand.count_stack_cons, Nat.add_assoc]

/-- **The leftmost operand that cannot be read ends the reading** with its fault.  Gone from the stack are only the operands
to the left of it. -/
theorem report_operandValues_of_unreadable (right : List Operand) (h : m.Yields taken left values)
    (hfault : m.worth (taken + left.count (.var .stack)) operand = .error fault) :
    (operandValues (left ++ operand :: right)).report { m with calls := m.calls.discard taken } =
      ⟨.error fault, { m with calls := m.calls.discard (taken + left.count (.var .stack)) }, []⟩ := by
  -- on the part that can be read: what it takes is what the last operand finds taken
  induction h with
  | nil =>
    rw [List.count_nil, Nat.add_zero] at hfault ⊢
    rw [List.nil_append]
    unfold operandValues
    rw [report_bind, report_operandValue_discard, hfault]
    rfl
  | cons first rest ih =>
    rw [Operand.count_stack_cons, ← Nat.add_assoc] at hfault ⊢
    rw [List.cons_append]
    unfold operandValues
    rw [report_bind, report_operandValue_discard, first]
    simp only [Report.andThen_ok_nil, report_bind, ih hfault, Report.andThen_error]

end Action

/-! ### The whole account -/

namespace Machine

variable {m : Machine} {operand : Operand} {operands left right : List Operand} {values : List UInt16} {fault : Fault}

theorem report_of_yields (h : m.Yields 0 operands values) : (Action.operandValues operands).report m =
    ⟨.ok values, { m with calls := m.calls.discard (operands.count (.var .stack)) }, []⟩ := by
  have hread := Action.report_operandValues_of_yields h
  rw [CallStack.discard_zero, Nat.zero_add] at hread
  exact hread

theorem report_of_unreadable (right : List Operand) (hleft : m.CanRead 0 left)
    (hfault : m.worth (left.count (.var .stack)) operand = .error fault) :
    (Action.operandValues (left ++ operand :: right)).report m =
      ⟨.error fault, { m with calls := m.calls.discard (left.count (.var .stack)) }, []⟩ := by
  obtain ⟨values, hvalues⟩ := (exists_yields_iff (Nat.zero_le _)).2 hleft
  rw [← Nat.zero_add (left.count _)] at hfault
  have hread := Action.report_operandValues_of_unreadable right hvalues hfault
  rw [CallStack.discard_zero, Nat.zero_add] at hread
  exact hread

/-- Either all operands can be read, or there is a leftmost one that cannot. -/
theorem canRead_or_unreadable (m : Machine) (operands : List Operand) :
    (∃ values, m.Yields 0 operands values) ∨
      ∃ left operand right fault, operands = left ++ operand :: right ∧ m.CanRead 0 left ∧
        m.worth (left.count (.var .stack)) operand = .error fault := by
  rcases m.yields_or_unreadable 0 operands with hvalues | ⟨left, operand, right, values, fault, hsplit, hleft, hfault⟩
  · exact .inl hvalues
  · rw [Nat.zero_add] at hfault
    exact .inr ⟨left, operand, right, fault, hsplit, (exists_yields_iff (Nat.zero_le _)).1 ⟨values, hleft⟩, hfault⟩

theorem operandValues_isOk_iff : ((Action.operandValues operands).report m).result.isOk ↔ m.CanRead 0 operands := by
  rw [← exists_yields_iff (Nat.zero_le _)]
  constructor
  · intro hok
    rcases m.canRead_or_unreadable operands with hvalues | ⟨left, operand, right, fault, rfl, hleft, hfault⟩
    · exact hvalues
    · rw [report_of_unreadable right hleft hfault] at hok
      cases hok
  · rintro ⟨values, hvalues⟩
    rw [report_of_yields hvalues]
    rfl

/-- How a machine reads operands. -/
structure ReadsFromLeft (m : Machine) (operands : List Operand) : Prop where
  succeeds_iff : ((Action.operandValues operands).report m).result.isOk ↔ m.CanRead 0 operands
  /-- Each operand yields what it is worth to the machine as it was, after as many values as there are operands on the stack
  to the left of it; and all that changes is that the operands on the stack are gone. -/
  success : ∀ values m' events, (Action.operandValues operands).report m = ⟨.ok values, m', events⟩ →
    values.length = operands.length ∧
      (∀ left operand right, operands = left ++ operand :: right →
        ∃ value, values[left.length]? = some value ∧ m.worth (left.count (.var .stack)) operand = .ok value) ∧
      m' = { m with calls := m.calls.discard (operands.count (.var .stack)) } ∧ events = []
  /-- A fault is that of an operand that cannot be read where all to the left of it can. -/
  failure_iff : ∀ fault m' events, (Action.operandValues operands).report m = ⟨.error fault, m', events⟩ ↔
    ∃ left operand right, operands = left ++ operand :: right ∧ m.CanRead 0 left ∧
      m.worth (left.count (.var .stack)) operand = .error fault ∧
      m' = { m with calls := m.calls.discard (left.count (.var .stack)) } ∧ events = []

/-- **Operands are read from left to right, and take what they yield.**  They can all be read if there are enough values on
the stack, the locals are declared, and the globals are in memory.  Then constants yield themselves, locals and globals what
they show before the instruction, and operands on the stack its values from the top down; and these are gone from it, and
nothing else has changed.  Otherwise the fault is that of the leftmost operand that cannot be read. -/
theorem operands_read_from_left (m : Machine) (operands : List Operand) : m.ReadsFromLeft operands where
  succeeds_iff := operandValues_isOk_iff
  success values m' events h := by
    rcases m.canRead_or_unreadable operands with ⟨values', hvalues⟩ | ⟨left, operand, right, fault, rfl, hleft, hfault⟩
    · rw [report_of_yields hvalues] at h
      cases h
      refine ⟨hvalues.length_eq, fun left operand right hsplit => ?_, rfl, rfl⟩
      subst hsplit
      have hworth := hvalues.worth_eq
      rw [Nat.zero_add] at hworth
      exact hworth
    · rw [report_of_unreadable right hleft hfault] at h
      cases h
  failure_iff fault m' events := by
    constructor
    · intro h
      rcases m.canRead_or_unreadable operands with ⟨values, hvalues⟩ | ⟨left, operand, right, fault', rfl, hleft, hfault⟩
      · rw [report_of_yields hvalues] at h
        cases h
      · rw [report_of_unreadable right hleft hfault] at h
        cases h
        exact ⟨left, operand, right, rfl, hleft, hfault, rfl, rfl⟩
    · rintro ⟨left, operand, right, rfl, hleft, hfault, rfl, rfl⟩
      exact report_of_unreadable right hleft hfault

/-! ### Steps -/

section Step

variable {i : Instruction} {op : Operation}

/-- A machine gets to perform an operation if it can read the operands. -/
theorem performs_iff_canRead (hf : Instruction.fetch m.memory m.pc.toNat = .ok (i, op))
    (henough : op.entry.minOperands ≤ i.operands.length) :
    (∃ values m', m.Performs i op values m') ↔ m.CanRead 0 i.operands := by
  constructor
  · rintro ⟨values, m', hp⟩
    have hread : CanRead { m with pc := i.nextPc } 0 i.operands := by
      rw [← operandValues_isOk_iff, hp.resolved]
      rfl
    exact ⟨hread.stack, hread.locals, hread.globals⟩
  · intro h
    have hread : CanRead { m with pc := i.nextPc } 0 i.operands := ⟨h.stack, h.locals, h.globals⟩
    obtain ⟨values, hvalues⟩ := (exists_yields_iff (Nat.zero_le _)).2 hread
    exact ⟨values, _, hf, henough, report_of_yields hvalues⟩

/-- **An operand that cannot be read ends the step**, with the address of its instruction in the failure, and only the
operands to the left of it gone from the stack. -/
theorem step_of_unreadable (hf : Instruction.fetch m.memory m.pc.toNat = .ok (i, op))
    (henough : op.entry.minOperands ≤ i.operands.length) (hsplit : i.operands = left ++ operand :: right)
    (hleft : m.CanRead 0 left) (hfault : m.worth (left.count (.var .stack)) operand = .error fault) :
    m.step.report = ⟨.error (m.failure fault), { m with calls := m.calls.discard (left.count (.var .stack)) }, []⟩ := by
  have hread : (Action.operandValues i.operands).report { m with pc := i.nextPc } =
      ⟨.error fault, { m with pc := i.nextPc, calls := m.calls.discard (left.count (.var .stack)) }, []⟩ := by
    rw [hsplit]
    exact report_of_unreadable right ⟨hleft.stack, hleft.locals, hleft.globals⟩ hfault
  have hexecute : Action.executeNext.report m =
      ⟨.error fault, { m with pc := i.nextPc, calls := m.calls.discard (left.count (.var .stack)) }, []⟩ := by
    rw [Action.executeNext, Action.report_bind, Action.report_fetch, hf]
    simp only [Report.andThen_ok_nil]
    rw [Action.execute, if_neg (Nat.not_lt.2 henough)]
    simp only [Action.report_bind, Action.report_setPc, Report.andThen_ok_nil, hread, Report.andThen_error]
  exact step_of_error hexecute

end Step

end Machine

end ZMachine
