import ZMachine.Proofs.PropertyWrite
import ZMachine.Proofs.Stages

/-!
# The property that an instruction names

The operand that names a property is a word, but the numbers of properties are bytes, and the low byte of the word is what
is looked for.  An instruction that names a property by a number from 256 on can therefore write another property, where
the object has none with that number.

* `Machine.Performs.putProp_cases`: the step of a property write;
* `Machine.HeedsNumber`, `Machine.WritesNumber`: a step that goes by the whole word, said in two ways;
* `Machine.property_number_heeded_iff`: when a step does so, and what it writes.
-/

namespace ZMachine

open PropertyTable

/-- The property that a search has found is the first one of the list with the number. -/
theorem PropertyTable.Reads.first_of_find {t : PropertyTable} {m : Memory} {object : UInt16} {property : UInt8}
    {items : List Item} {ending : Ending} {slot : Slot} (h : t.Reads m object items ending)
    (hfind : t.find m object property = .ok slot) :
    ∃ before item after, items = before ++ item :: after ∧ (∀ other ∈ before, other.number ≠ property) ∧
      item.number = property ∧ item.slot = slot :=
  ((h.findsFirst.found_iff slot).1 hfind).2

namespace Machine

variable {m m' : Machine} {t : PropertyTable} {i : Instruction} {object number value : UInt16} {rest : List UInt16}

/-! ### The step of a property write -/

/-- A step that writes a property does to memory what the table of the story does, given the low byte of the number. -/
theorem Performs.putProp_cases (h : m.Performs i .putProp (object :: number :: value :: rest) m')
    (ht : m.objects = .table t) :
    (∃ memory, t.put m.memory object (Word.low number) value = .ok memory ∧ m.step.result = .ok .running ∧
      m.step.machine.memory = memory) ∨
    ∃ fault, t.put m.memory object (Word.low number) value = .error fault ∧
      m.step.result = .error (m.failure fault) ∧ m.step.machine.memory = m.memory := by
  have hmemory : m'.memory = m.memory := by rw [h.machine_eq_discard]
  have ht' : m'.objects = .table t := by rw [h.machine_eq_discard, ← ht]
  have happly := (Action.report_putProperty object (Word.low number) value m').symm.trans (report_of_table ht')
  rw [hmemory] at happly
  cases hput : t.put m.memory object (Word.low number) value with
  | ok memory =>
    left
    rw [hput, map_ok, Report.attempt_ok] at happly
    have hs := h.step_ok happly
    exact ⟨memory, rfl, congrArg Report.result hs, congrArg (fun r => r.machine.memory) hs⟩
  | error fault =>
    right
    rw [hput, map_error, Report.attempt_error] at happly
    have hs := h.step_error happly
    refine ⟨fault, rfl, (congrArg Report.result hs).trans ?_, (congrArg (fun r => r.machine.memory) hs).trans hmemory⟩
    rw [h.machine_eq_discard]
    rfl

theorem Performs.step_of_put {memory : Memory} (h : m.Performs i .putProp (object :: number :: value :: rest) m')
    (ht : m.objects = .table t) (hput : t.put m.memory object (Word.low number) value = .ok memory) :
    m.step.result = .ok .running ∧ m.step.machine.memory = memory := by
  rcases h.putProp_cases ht with ⟨memory', hput', hresult, hmemory⟩ | ⟨fault, hput', -, -⟩
  · cases hput.symm.trans hput'
    exact ⟨hresult, hmemory⟩
  · cases hput.symm.trans hput'

/-! ### Numbers of properties -/

/-- A step that goes by the whole number it is given: if the object's list has no property with that number, the step fails
and memory is what it was. -/
def HeedsNumber (m : Machine) (t : PropertyTable) (object number : UInt16) : Prop :=
  ∀ items ending, t.Reads m.memory object items ending → (∀ item ∈ items, item.number.toNat ≠ number.toNat) →
    ¬m.step.result.isOk ∧ m.step.machine.memory = m.memory

/-- The same said of a step that succeeds: it has written the data of a property of the object with that number. -/
def WritesNumber (m : Machine) (t : PropertyTable) (object number value : UInt16) : Prop :=
  m.step.result.isOk → ∃ items ending item, t.Reads m.memory object items ending ∧ item ∈ items ∧
    item.number.toNat = number.toNat ∧ Filled m.memory item.slot value m.step.machine.memory

/-- What is known of a step that writes a property. -/
structure PutStep (m : Machine) (t : PropertyTable) (object number value : UInt16) : Prop where
  /-- A step that succeeds writes the first property whose number is the low byte of the one given. -/
  succeeded : m.step.result.isOk → ∃ items ending before item after, t.Reads m.memory object items ending ∧
    items = before ++ item :: after ∧ (∀ other ∈ before, other.number.toNat ≠ number.toNat % 256) ∧
    item.number.toNat = number.toNat % 256 ∧ Filled m.memory item.slot value m.step.machine.memory
  failed : ∀ failure, m.step.result = .error failure →
    t.PutFault m.memory object (Word.low number) value failure.cause ∧ m.step.machine.memory = m.memory
  heeds_iff : m.HeedsNumber t object number ↔ number.toNat < 256 ∨ ¬m.step.result.isOk
  writes_iff : m.WritesNumber t object number value ↔ number.toNat < 256 ∨ ¬m.step.result.isOk

theorem ne_low_iff {byte : UInt8} : byte ≠ Word.low number ↔ byte.toNat ≠ number.toNat % 256 := by
  rw [ne_eq, ne_eq, ← UInt8.toNat_inj, Word.toNat_low]

theorem Performs.putProp_succeeded (h : m.Performs i .putProp (object :: number :: value :: rest) m')
    (ht : m.objects = .table t) (hok : m.step.result.isOk) :
    ∃ items ending before item after, t.Reads m.memory object items ending ∧ items = before ++ item :: after ∧
      (∀ other ∈ before, other.number.toNat ≠ number.toNat % 256) ∧ item.number.toNat = number.toNat % 256 ∧
      Filled m.memory item.slot value m.step.machine.memory := by
  rcases h.putProp_cases ht with ⟨memory, hput, -, hmemory⟩ | ⟨fault, -, hresult, -⟩
  · obtain ⟨slot, hfind, hfilled⟩ := filled_of_put hput
    obtain ⟨items, ending, hreads⟩ := exists_reads t m.memory object
    obtain ⟨before, item, after, hitems, hbefore, hnumber, rfl⟩ := hreads.first_of_find hfind
    refine ⟨items, ending, before, item, after, hreads, hitems, fun other hother => ?_, ?_, ?_⟩
    · exact ne_low_iff.1 (hbefore other hother)
    · rw [hnumber, Word.toNat_low]
    · rw [hmemory]
      exact hfilled
  · rw [hresult] at hok
    cases hok

/-- A step that fails leaves memory as it was. -/
theorem Performs.putProp_failed (h : m.Performs i .putProp (object :: number :: value :: rest) m')
    (ht : m.objects = .table t) {failure : Failure} (hfailed : m.step.result = .error failure) :
    t.PutFault m.memory object (Word.low number) value failure.cause ∧ m.step.machine.memory = m.memory := by
  rcases h.putProp_cases ht with ⟨memory, -, hresult, -⟩ | ⟨fault, hput, hresult, hmemory⟩
  · rw [hresult] at hfailed
    cases hfailed
  · rw [hresult] at hfailed
    cases hfailed
    exact ⟨put_eq_error_iff.1 hput, hmemory⟩

/-- No property has a number that does not fit a byte. -/
theorem HeedsNumber.not_isOk (h : m.HeedsNumber t object number) (hlarge : 256 ≤ number.toNat) :
    ¬m.step.result.isOk := by
  obtain ⟨items, ending, hreads⟩ := exists_reads t m.memory object
  refine (h items ending hreads fun item _ => ?_).1
  have hlt := item.number.toNat_lt
  omega

theorem WritesNumber.not_isOk (h : m.WritesNumber t object number value) (hlarge : 256 ≤ number.toNat) :
    ¬m.step.result.isOk := by
  intro hok
  obtain ⟨items, ending, item, -, -, hnumber, -⟩ := h hok
  have hlt := item.number.toNat_lt
  omega

/-- **The number of a property is heeded as far as it is a byte.**  A property write that succeeds has written the first
property whose number is the low byte of the one given; one that fails leaves memory as it was.  So a step goes by the
whole number, in that it fails where the object has no property with it, exactly if the number is below 256 or the step
fails; and it has written a property with that number, if it succeeds, in the same cases. -/
theorem property_number_heeded_iff (h : m.Performs i .putProp (object :: number :: value :: rest) m')
    (ht : m.objects = .table t) : m.PutStep t object number value where
  succeeded := h.putProp_succeeded ht
  failed _ := h.putProp_failed ht
  heeds_iff := by
    constructor
    · intro hheeds
      rcases Nat.lt_or_ge number.toNat 256 with hsmall | hlarge
      · exact .inl hsmall
      · exact .inr (hheeds.not_isOk hlarge)
    · intro hcase items ending hreads hnone
      have hfails : ¬m.step.result.isOk := by
        intro hok
        rcases hcase with hsmall | hfails
        · obtain ⟨items', ending', before, item, after, hreads', hitems, -, hnumber, -⟩ := h.putProp_succeeded ht hok
          obtain ⟨rfl, rfl⟩ := hreads.unique hreads'
          rw [Nat.mod_eq_of_lt hsmall] at hnumber
          exact hnone item (by simp [hitems]) hnumber
        · exact hfails hok
      refine ⟨hfails, ?_⟩
      cases hresult : m.step.result with
      | error failure => exact (h.putProp_failed ht hresult).2
      | ok progress =>
        rw [hresult] at hfails
        exact absurd rfl hfails
  writes_iff := by
    constructor
    · intro hwrites
      rcases Nat.lt_or_ge number.toNat 256 with hsmall | hlarge
      · exact .inl hsmall
      · exact .inr (hwrites.not_isOk hlarge)
    · intro hcase hok
      rcases hcase with hsmall | hfails
      · obtain ⟨items, ending, before, item, after, hreads, hitems, -, hnumber, hfilled⟩ := h.putProp_succeeded ht hok
        rw [Nat.mod_eq_of_lt hsmall] at hnumber
        exact ⟨items, ending, item, hreads, by simp [hitems], hnumber, hfilled⟩
      · exact absurd hok hfails

/-- A story with one object, whose one property has the number 18 and two bytes of data.  Its first instruction writes to
property 274 of the object, its second, at address 41, to property 18. -/
def overnamed : Array UInt8 :=
  #[3, 0, 0, 1, 0, 34, 0, 34, 0, 34, 0, 0, 0, 48, 0, 76, 0, 0, 48, 48, 48, 48, 48, 48, 0, 34, 0, 0, 0, 0, 0, 0, 0, 0,
    0xE3, 0x43, 0x01, 0x01, 0x12, 0xBE, 0xEF, 0xE3, 0x53, 0x01, 0x12, 0x12, 0x34, 0xBA, 0, 0, 0, 0, 0, 0, 0, 0, 0, 0,
    0, 0, 0, 0, 0, 0, 0, 0, 0, 0, 0, 0x00, 0x47, 0x00, 0x32, 0x00, 0x00, 0x00]

theorem overnamed_reads : Reads ⟨3, 0⟩ ⟨overnamed, 76⟩ 1 [⟨18, 73, 2⟩] .closed :=
  .listed rfl (.item rfl (.ends rfl))

theorem overnamed_put (value : UInt16) :
    put ⟨3, 0⟩ ⟨overnamed, 76⟩ 1 18 value = .ok (Memory.setWord ⟨overnamed, 76⟩ 73 value) := by
  have hfind : find ⟨3, 0⟩ ⟨overnamed, 76⟩ 1 18 = .ok ⟨73, 2⟩ :=
    (overnamed_reads.findsFirst.found_iff ⟨73, 2⟩).2 ⟨⟨by decide, by decide⟩, [], ⟨18, 73, 2⟩, [], rfl, nofun, rfl, rfl⟩
  rw [put_eq, hfind]
  rfl

theorem overnamed_second_put :
    ∃ m i m', load overnamed = .ok m ∧ { m with pc := 41 }.Performs i .putProp [1, 18, 0x1234] m' ∧
      m.objects = .table ⟨3, 0⟩ ∧ { m with pc := 41 }.PutStep ⟨3, 0⟩ 1 18 0x1234 ∧
      { m with pc := 41 }.step.result = .ok .running := by
  obtain ⟨m, hm, i, m', hp, ht, hmemory⟩ : ∃ m, load overnamed = .ok m ∧ ∃ i m',
      { m with pc := 41 }.Performs i .putProp [1, 18, 0x1234] m' ∧ m.objects = .table ⟨3, 0⟩ ∧
        m.memory = ⟨overnamed, 76⟩ :=
    ⟨_, rfl, _, _, ⟨rfl, by decide, rfl⟩, rfl, rfl⟩
  exact ⟨m, i, m', hm, hp, ht, property_number_heeded_iff hp ht, (hp.step_of_put ht (hmemory ▸ overnamed_put 0x1234)).1⟩

/-- Property 18 takes the value meant for property 274, which the object does not have. -/
theorem overnamed_not_heeded :
    ∃ m, load overnamed = .ok m ∧ m.step.result = .ok .running ∧ m.objects = .table ⟨3, 0⟩ ∧
      Reads ⟨3, 0⟩ m.memory 1 [⟨18, 73, 2⟩] .closed ∧ m.memory.bytes[73]? = some 0 ∧
      m.step.machine.memory.bytes[73]? = some 0xBE ∧ ¬m.HeedsNumber ⟨3, 0⟩ 1 274 := by
  obtain ⟨m, hm, i, m', hp, ht, hmemory⟩ : ∃ m, load overnamed = .ok m ∧ ∃ i m',
      m.Performs i .putProp [1, 274, 0xBEEF] m' ∧ m.objects = .table ⟨3, 0⟩ ∧ m.memory = ⟨overnamed, 76⟩ :=
    ⟨_, rfl, _, _, ⟨rfl, by decide, rfl⟩, rfl, rfl⟩
  obtain ⟨hresult, hafter⟩ := hp.step_of_put ht (hmemory ▸ overnamed_put 0xBEEF)
  have hok : m.step.result.isOk := by rw [hresult]; rfl
  refine ⟨m, hm, hresult, ht, hmemory ▸ overnamed_reads, ?_, ?_, fun h => h.not_isOk (by decide) hok⟩
  · rw [hmemory]
    rfl
  · rw [hafter, hmemory]
    rfl

end Machine

end ZMachine
