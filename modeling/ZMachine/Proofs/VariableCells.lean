import ZMachine.Proofs.Bracketing
import ZMachine.Proofs.Trace

/-!
# Variables as cells

Variables are kept in three places: the top of the evaluation stack, the locals of the current frame, and the words of the
table of globals.  Under their 256 numbers they are cells that do not depend on each other: one that is assigned to shows
the value, and all others show what they showed before.

* `Frame.readLocal_writeLocal_of_ne`, `Memory.readWord_setWord_of_disjoint`: other locals and other words are left alone;
* `Machine.valueOf_of_assign?_of_ne`: so are all other variables;
* `Machine.report_readVariable_of_write?`: a result that has been stored can be read back;
* `Machine.variables_are_independent_cells`: the whole account.
-/

namespace ZMachine

/-! ### Places that are left alone -/

theorem Variable.ofNumber_ne {v w : UInt8} (h : w ≠ v) : ofNumber w ≠ ofNumber v := by
  intro hvar
  have hnumber := congrArg number hvar
  rw [number_ofNumber, number_ofNumber] at hnumber
  exact h hnumber

theorem Frame.readLocal_writeLocal_of_ne {f f' : Frame} {slot other : UInt8} {value : UInt16}
    (h : f.writeLocal slot value = .ok f') (hne : other ≠ slot) : f'.readLocal other = f.readLocal other := by
  obtain ⟨-, rfl⟩ := writeLocal_eq_ok_iff.1 h
  have hslot : slot.toNat ≠ other.toNat := fun heq => hne (UInt8.toNat_inj.1 heq.symm)
  unfold readLocal
  simp only [Vector.toArray_setIfInBounds, Array.getD_eq_getD_getElem?, Array.getElem?_setIfInBounds_ne hslot]

namespace Memory

variable {m m' : Memory} {address other : Nat} {word : UInt16}

theorem readByte_congr (hsize : m'.size = m.size) (h : m'.bytes[address]? = m.bytes[address]?) :
    m'.readByte address = m.readByte address := by
  unfold readByte
  rw [h, hsize]

theorem readWord_congr (hsize : m'.size = m.size) (hhigh : m'.bytes[address]? = m.bytes[address]?)
    (hlow : m'.bytes[address + 1]? = m.bytes[address + 1]?) : m'.readWord address = m.readWord address := by
  unfold readWord
  rw [readByte_congr hsize hhigh, readByte_congr hsize hlow]

/-- A word that shares no byte with the one that is set is read as before, or is not there as before. -/
theorem readWord_setWord_of_disjoint (h : other + 2 ≤ address ∨ address + 2 ≤ other) :
    (m.setWord address word).readWord other = m.readWord other := by
  have hbyte : ∀ k, k ≠ address → k ≠ address + 1 → (m.setWord address word).bytes[k]? = m.bytes[k]? := by
    intro k hk hk'
    rw [getElem?_setWord, if_neg (fun hand => hk' hand.1), if_neg (fun hand => hk hand.1)]
  apply readWord_congr (m.size_setWord address word)
  · exact hbyte other (by omega) (by omega)
  · exact hbyte (other + 1) (by omega) (by omega)

end Memory

namespace Machine

variable {m m' : Machine} {target other : Variable} {number : UInt8} {value : UInt16}

/-! ### Assigning -/

/-- **An assignment leaves all other variables alone.** -/
theorem valueOf_of_assign?_of_ne (h : m.assign? target value = .ok m') (hne : other ≠ target) :
    m'.valueOf other = m.valueOf other := by
  cases target with
  | stack =>
    obtain ⟨frame, hf, rfl⟩ := map_eq_ok_iff.1 h
    obtain ⟨top, rest, -, rfl⟩ := Frame.replaceTop_eq_ok_iff.1 hf
    cases other with
    | stack => exact absurd rfl hne
    | localSlot slot | globalCell index => rfl
  | localSlot slot =>
    obtain ⟨frame, hf, rfl⟩ := map_eq_ok_iff.1 h
    cases other with
    | stack =>
      obtain ⟨-, rfl⟩ := Frame.writeLocal_eq_ok_iff.1 hf
      rfl
    | localSlot slot' => exact Frame.readLocal_writeLocal_of_ne hf fun hslot => hne (hslot ▸ rfl)
    | globalCell index => rfl
  | globalCell index =>
    obtain ⟨memory, hm, rfl⟩ := map_eq_ok_iff.1 h
    obtain ⟨-, -, rfl⟩ := Memory.writeWord_eq_ok_iff.1 hm
    cases other with
    | stack | localSlot slot => rfl
    | globalCell index' =>
      have hindex : index'.toNat ≠ index.toNat := fun heq => hne (UInt8.toNat_inj.1 heq ▸ rfl)
      refine Memory.readWord_setWord_of_disjoint ?_
      show m.globalAddress index' + 2 ≤ m.globalAddress index ∨ m.globalAddress index + 2 ≤ m.globalAddress index'
      unfold globalAddress
      omega

/-- An assignment keeps the number of values on the stack, the frames of the callers, the extent of memory, and all that is
neither frames nor memory. -/
theorem shape_of_assign? (h : m.assign? target value = .ok m') :
    m' = { m with memory := m'.memory, calls := m'.calls } ∧
      m'.calls.current.stack.length = m.calls.current.stack.length ∧ m'.calls.callers = m.calls.callers ∧
      m'.memory.size = m.memory.size ∧ m'.memory.staticBase = m.memory.staticBase := by
  cases target with
  | stack =>
    obtain ⟨frame, hf, rfl⟩ := map_eq_ok_iff.1 h
    obtain ⟨top, rest, hs, rfl⟩ := Frame.replaceTop_eq_ok_iff.1 hf
    refine ⟨rfl, ?_, rfl, rfl, rfl⟩
    rw [hs]
    rfl
  | localSlot slot =>
    obtain ⟨frame, hf, rfl⟩ := map_eq_ok_iff.1 h
    obtain ⟨-, rfl⟩ := Frame.writeLocal_eq_ok_iff.1 hf
    exact ⟨rfl, rfl, rfl, rfl, rfl⟩
  | globalCell index =>
    obtain ⟨memory, hm, rfl⟩ := map_eq_ok_iff.1 h
    obtain ⟨-, -, rfl⟩ := Memory.writeWord_eq_ok_iff.1 hm
    exact ⟨rfl, rfl, rfl, m.memory.size_setWord _ _, rfl⟩

/-- Where the word of the global with a number stands: numbers from 16 on are those of globals, two bytes each. -/
theorem globalAddress_of_ofNumber {index : UInt8} (h : Variable.ofNumber number = .globalCell index) :
    16 ≤ number.toNat ∧ m.globalAddress index = m.header.globals.toNat + 2 * (number.toNat - 16) := by
  rcases ofNumber_cases number with ⟨-, hn⟩ | ⟨-, -, hn⟩ | ⟨h16, hn⟩
  · cases hn.symm.trans h
  · cases hn.symm.trans h
  · cases hn.symm.trans h
    have hindex : (number - 16).toNat = number.toNat - 16 := UInt8.toNat_sub_of_le _ _ h16
    refine ⟨h16, ?_⟩
    rw [globalAddress, hindex, Nat.mul_comm]

/-- A machine after the assignment of a value to the variable with a number. -/
structure Assigned (m : Machine) (number : UInt8) (value : UInt16) (m' : Machine) : Prop where
  shows : (Action.loadVariable (.ofNumber number)).report m' = ⟨.ok value, m', []⟩
  /-- Every other variable shows what it showed before, or cannot be read for the same fault. -/
  others : ∀ other, other ≠ number → ((Action.loadVariable (.ofNumber other)).report m').result =
    ((Action.loadVariable (.ofNumber other)).report m).result
  stack_length : m'.calls.current.stack.length = m.calls.current.stack.length
  callers : m'.calls.callers = m.calls.callers
  /-- Only the two bytes of a global may have changed. -/
  memory : ∀ k, m'.memory.bytes[k]? = m.memory.bytes[k]? ∨ 16 ≤ number.toNat ∧
    (k = m.header.globals.toNat + 2 * (number.toNat - 16) ∨ k = m.header.globals.toNat + 2 * (number.toNat - 16) + 1)
  extent : m'.memory.size = m.memory.size ∧ m'.memory.staticBase = m.memory.staticBase
  rest : m' = { m with memory := m'.memory, calls := m'.calls }

theorem assigned_of_assign? (hw : m.calls.WellFormed) (h : m.assign? (.ofNumber number) value = .ok m') :
    m.Assigned number value m' := by
  have hstored := storedIn_of_assign? hw h
  obtain ⟨hrest, hlength, hcallers, hextent⟩ := shape_of_assign? h
  refine ⟨?_, fun other hne => ?_, hlength, hcallers, fun k => ?_, hextent, hrest⟩
  · rw [Action.report_loadVariable, hstored.shows]
  · rw [Action.report_loadVariable, Action.report_loadVariable]
    exact valueOf_of_assign?_of_ne h (Variable.ofNumber_ne hne)
  · rcases hstored.memory k with hsame | ⟨index, hindex, hk⟩
    · exact .inl hsame
    · obtain ⟨h16, haddress⟩ := m.globalAddress_of_ofNumber hindex
      rw [haddress] at hk
      exact .inr ⟨h16, hk⟩

/-! ### Results -/

/-- Results and assignments differ on the stack alone. -/
theorem writeVariable_eq_assignVariable (h : target ≠ .stack) (value : UInt16) :
    Action.writeVariable target value = Action.assignVariable target value := by
  cases target with
  | stack => exact absurd rfl h
  | localSlot slot | globalCell index => rfl

theorem ofNumber_eq_stack_iff : Variable.ofNumber number = .stack ↔ number = 0 := by
  constructor
  · intro h
    rcases ofNumber_cases number with ⟨h0, -⟩ | ⟨-, -, hn⟩ | ⟨-, hn⟩
    · exact h0
    · cases hn.symm.trans h
    · cases hn.symm.trans h
  · rintro rfl
    rfl

/-- Pushing a value and popping it again changes nothing. -/
theorem pop_of_push {frame : Frame} (h : m.calls.current.push value = .ok frame) :
    (m.withCurrent frame).pop = ⟨.ok value, m, []⟩ := by
  obtain ⟨-, rfl⟩ := Frame.push_eq_ok_iff.1 h
  rfl

/-- **A result that has been stored can be read back.**  On the stack it is gone then, and everything is as before it was
stored; elsewhere it stays. -/
theorem report_readVariable_of_write? (hw : m.calls.WellFormed) (h : m.write? target value = .ok m') :
    (Action.readVariable target).report m' = ⟨.ok value, if target = .stack then m else m', []⟩ := by
  cases target with
  | stack =>
    obtain ⟨frame, hf, rfl⟩ := map_eq_ok_iff.1 h
    exact (Action.report_pop _).trans (pop_of_push hf)
  | localSlot slot =>
    have hshows : m'.calls.current.readLocal slot = .ok value := (storedIn_of_write? hw h).shows
    show (⟨m'.calls.current.readLocal slot, m', []⟩ : Report Fault UInt16) = _
    rw [hshows, if_neg nofun]
  | globalCell index =>
    have hshows : m'.memory.readWord (m'.globalAddress index) = .ok value := (storedIn_of_write? hw h).shows
    show (⟨m'.memory.readWord (m'.globalAddress index), m', []⟩ : Report Fault UInt16) = _
    rw [hshows, if_neg nofun]

/-! ### Failures -/

/-- An action that leaves a machine as it was if it fails. -/
def KeptByFailing {α : Type} (m : Machine) (x : Action α) : Prop :=
  ∀ fault, (x.report m).result = .error fault → (x.report m).machine = m

theorem keptByFailing_of_attempt {x : Action Unit} {change : Except Fault Machine}
    (h : x.report m = .attempt m [] change) : m.KeptByFailing x := by
  intro fault hfault
  rw [h] at hfault ⊢
  cases change with
  | error fault' => rfl
  | ok m' => cases hfault

theorem keptByFailing_readVariable (m : Machine) (source : Variable) : m.KeptByFailing (Action.readVariable source) := by
  intro fault hfault
  cases source with
  | stack =>
    have hpop : (Action.readVariable .stack).report m = m.pop := Action.report_pop m
    rw [hpop] at hfault ⊢
    rcases m.pop_cases with ⟨hp, -⟩ | ⟨top, rest, -, hp⟩
    · rw [hp]
    · rw [hp] at hfault
      cases hfault
  | localSlot slot | globalCell index => rfl

/-! ### The whole account -/

/-- What is known of the variables of a machine, by their numbers. -/
structure IndependentCells (m : Machine) : Prop where
  assigned : ∀ number value m' events,
    (Action.assignVariable (.ofNumber number) value).report m = ⟨.ok (), m', events⟩ → m.Assigned number value m'
  /-- A result that has been stored can be read back, which undoes the storing if it was on the stack. -/
  written : ∀ number value m' events,
    (Action.writeVariable (.ofNumber number) value).report m = ⟨.ok (), m', events⟩ →
    (Action.readVariable (.ofNumber number)).report m' = ⟨.ok value, if number = 0 then m else m', []⟩
  same : ∀ number value, number ≠ 0 →
    Action.writeVariable (.ofNumber number) value = Action.assignVariable (.ofNumber number) value
  load_failing : ∀ number, m.KeptByFailing (Action.loadVariable (.ofNumber number))
  assign_failing : ∀ number value, m.KeptByFailing (Action.assignVariable (.ofNumber number) value)
  read_failing : ∀ number, m.KeptByFailing (Action.readVariable (.ofNumber number))
  write_failing : ∀ number value, m.KeptByFailing (Action.writeVariable (.ofNumber number) value)

/-- **The 256 variables are independent cells.**  An assignment that succeeds makes the variable show the value and leaves
all the others alone, the number of values on the stack, the frames of the callers, and memory but for the two bytes of
the variable if it is a global.  A result that has been stored can be read back; on the stack that leaves everything as it
was before, and off it storing a result and assigning are the same.  No access that fails changes anything. -/
theorem variables_are_independent_cells {m : Machine} (hw : m.calls.WellFormed) : m.IndependentCells where
  assigned number value m' events h := by
    rw [Action.report_assignVariable] at h
    exact assigned_of_assign? hw (Report.attempt_eq_ok h).1
  written number value m' events h := by
    rw [Action.report_writeVariable] at h
    have hread := report_readVariable_of_write? hw (Report.attempt_eq_ok h).1
    simp only [ofNumber_eq_stack_iff] at hread
    exact hread
  same number value hne := writeVariable_eq_assignVariable (fun h => hne (ofNumber_eq_stack_iff.1 h)) value
  load_failing number fault _ := by rw [Action.report_loadVariable]
  assign_failing number value := keptByFailing_of_attempt (Action.report_assignVariable (.ofNumber number) value m)
  read_failing number := m.keptByFailing_readVariable (.ofNumber number)
  write_failing number value := keptByFailing_of_attempt (Action.report_writeVariable (.ofNumber number) value m)

/-- A story that calls a routine with two locals, 5 and 6, which pushes 7.  The last four bytes are its first two globals. -/
def cabinet : Array UInt8 :=
  #[3, 0, 0, 1, 0, 34, 0, 34, 0, 34, 0, 34, 0, 52, 0, 56, 0, 0, 48, 48, 48, 48, 48, 48, 0, 34, 0, 0, 0, 0, 0, 0, 0, 0,
    0xE0, 0x3F, 0x00, 0x15, 0x10, 0xBA, 0x00, 0x00, 0x02, 0x00, 0x05, 0x00, 0x06, 0xE8, 0x7F, 0x07, 0xBA, 0x00,
    0x00, 0x01, 0x00, 0x02]

theorem cabinet_independent_cells :
    ∃ m, load cabinet = .ok m ∧ (m.after 2).calls.WellFormed ∧ (m.after 2).IndependentCells ∧
      (m.after 2).calls.current.stack = [7] ∧ (m.after 2).calls.current.declaredLocals = [5, 6] ∧
      (∃ m', (Action.assignVariable (.ofNumber 2) 9).report (m.after 2) = ⟨.ok (), m', []⟩ ∧
        m'.calls.current.declaredLocals = [5, 9]) ∧
      ∃ m', (Action.writeVariable (.ofNumber 17) 9).report (m.after 2) = ⟨.ok (), m', []⟩ ∧
        m'.memory.bytes.toList.drop 52 = [0, 1, 0, 9] := by
  refine ⟨_, rfl, ?_, ?_, rfl, rfl, ⟨_, rfl, rfl⟩, ⟨_, rfl, rfl⟩⟩
  · exact calls_wellFormed_invariant.after CallStack.wellFormed_start 2
  · exact variables_are_independent_cells (calls_wellFormed_invariant.after CallStack.wellFormed_start 2)

end Machine

end ZMachine
