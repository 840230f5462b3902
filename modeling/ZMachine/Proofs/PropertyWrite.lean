import ZMachine.Proofs.Effect
import ZMachine.Proofs.PropertyList

/-!
# Writing a property

A property write changes the data of the property and nothing else.  The headers of a list stand outside the data of its
properties, so the list is read as before, and the property shows the value, unless the data overlaps the word that points
to the list.

* `PropertyTable.Reads.of_data`: a list is read as before when the data of one of its properties has changed;
* `PropertyTable.filled_of_put`, `PropertyTable.put_eq_error_iff`: what a write comes to;
* `PropertyTable.put_writes_data_only`: the whole write, also as a machine makes it.
-/

namespace ZMachine

namespace PropertyTable

/-! ### The list after a change of data -/

/-- The start of a list depends on the word that points to it and on a byte before the list. -/
theorem listStart_of_ok {bytes bytes' : Array UInt8} {pointer start : Nat} (h : listStart bytes pointer = .ok start)
    (hhigh : bytes'[pointer]? = bytes[pointer]?) (hlow : bytes'[pointer + 1]? = bytes[pointer + 1]?)
    (hbefore : ∀ k, k < start → bytes'[k]? = bytes[k]?) : listStart bytes' pointer = .ok start := by
  unfold listStart at h ⊢
  rw [hhigh, hlow]
  split at h
  · cases h
  · cases h
  · next hi lo hhi hlo =>
    dsimp only at h ⊢
    split at h
    · cases h
    · next words hwords =>
      cases h
      rw [hbefore _ (by omega), hwords]

section

variable {t : PropertyTable} {m m' : Memory} {object value : UInt16} {property : UInt8} {items : List Item}
  {ending : Ending} {slot : Slot} {fault : Fault}

/-- **A list is read as before when the data of one of its properties has changed**, unless the word that points to the list
is part of that data. -/
theorem Reads.of_data {item : Item} (h : t.Reads m object items ending) (hitem : item ∈ items)
    (hpointer : t.pointerAddress object + 2 ≤ item.slot.address ∨ item.next ≤ t.pointerAddress object)
    (houtside : ∀ k, k < item.slot.address ∨ item.next ≤ k → m'.bytes[k]? = m.bytes[k]?) :
    t.Reads m' object items ending := by
  cases h with
  | unreadable _ => cases hitem
  | @listed start items ending hstart list =>
    obtain ⟨hdata, -⟩ := list.slot_bounds hitem
    refine .listed (listStart_of_ok hstart (houtside _ (by omega)) (houtside _ (by omega)) ?_) ?_
    · exact fun k hk => houtside k (.inl (by omega))
    · exact list.congr fun k _ hk => houtside k (hk item hitem)

theorem find_eq_of_reads (h : t.Reads m object items ending) (h' : t.Reads m' object items ending)
    (hsize : m'.size = m.size) (other : UInt8) : t.find m' object other = t.find m object other := by
  by_cases hobject : t.HasObject object
  · rw [find_eq_answer hobject h, find_eq_answer hobject h', hsize]
  · rw [find_of_not_hasObject hobject, find_of_not_hasObject hobject]

/-- The property that a search has found is one of the list. -/
theorem Reads.exists_item (h : t.Reads m object items ending) (hfind : t.find m object property = .ok slot) :
    ∃ item ∈ items, item.slot = slot := by
  obtain ⟨-, before, item, after, rfl, -, -, hslot⟩ := (h.findsFirst.found_iff slot).1 hfind
  exact ⟨item, by simp, hslot⟩

theorem size_pos_of_find (h : t.find m object property = .ok slot) : 0 < slot.size := by
  obtain ⟨items, ending, hreads⟩ := exists_reads t m object
  obtain ⟨item, hitem, rfl⟩ := hreads.exists_item h
  cases hreads with
  | unreadable _ => cases hitem
  | listed _ list => exact (list.slot_bounds hitem).2

/-! ### What a write comes to -/

/-- A memory after a value has been put into a slot of one or two bytes. -/
structure Filled (m : Memory) (slot : Slot) (value : UInt16) (m' : Memory) : Prop where
  size : m'.size = m.size
  staticBase : m'.staticBase = m.staticBase
  outside : ∀ k, k < slot.address ∨ slot.address + slot.size ≤ k → m'.bytes[k]? = m.bytes[k]?
  data : slot.size = 1 ∧ m'.bytes[slot.address]? = some (Word.low value) ∨
    slot.size = 2 ∧ m'.bytes[slot.address]? = some (Word.high value) ∧
      m'.bytes[slot.address + 1]? = some (Word.low value)

theorem filled_of_writeByte (hsize : slot.size = 1) (h : m.writeByte slot.address (Word.low value) = .ok m') :
    Filled m slot value m' := by
  obtain ⟨hlt, -, rfl⟩ := Memory.writeByte_eq_ok_iff.1 h
  refine ⟨m.size_setByte _ _, rfl, fun k hk => ?_, .inl ⟨hsize, ?_⟩⟩
  · rw [Memory.getElem?_setByte, if_neg (by omega)]
  · rw [Memory.getElem?_setByte, if_pos ⟨rfl, hlt⟩]

theorem filled_of_writeWord (hsize : slot.size = 2) (h : m.writeWord slot.address value = .ok m') :
    Filled m slot value m' := by
  obtain ⟨hlt, -, rfl⟩ := Memory.writeWord_eq_ok_iff.1 h
  refine ⟨m.size_setWord _ _, rfl, fun k hk => ?_, .inr ⟨hsize, ?_, ?_⟩⟩
  · rw [Memory.getElem?_setWord, if_neg (by omega), if_neg (by omega)]
  · rw [Memory.getElem?_setWord, if_neg (by omega), if_pos ⟨rfl, by omega⟩]
  · rw [Memory.getElem?_setWord, if_pos ⟨rfl, hlt⟩]

theorem filled_of_put (h : t.put m object property value = .ok m') :
    ∃ slot, t.find m object property = .ok slot ∧ Filled m slot value m' := by
  rw [put_eq] at h
  obtain ⟨slot, hfind, h⟩ := bind_eq_ok_iff.1 h
  refine ⟨slot, hfind, ?_⟩
  split at h
  · next hsize => exact filled_of_writeByte hsize h
  · split at h
    · next hsize => exact filled_of_writeWord hsize h
    · cases h

/-- The faults of a property write: that of the search, a property of more than two bytes, or the fault of the write to
memory. -/
inductive PutFault (t : PropertyTable) (m : Memory) (object : UInt16) (property : UInt8) (value : UInt16) : Fault → Prop
  | search {fault : Fault} (h : t.find m object property = .error fault) : PutFault t m object property value fault
  | tooLarge {slot : Slot} (h : t.find m object property = .ok slot) (hsize : 2 < slot.size) :
      PutFault t m object property value (.propertyTooLarge object property slot.size)
  | byte {slot : Slot} {fault : Fault} (h : t.find m object property = .ok slot) (hsize : slot.size = 1)
      (hwrite : m.writeByte slot.address (Word.low value) = .error fault) : PutFault t m object property value fault
  | word {slot : Slot} {fault : Fault} (h : t.find m object property = .ok slot) (hsize : slot.size = 2)
      (hwrite : m.writeWord slot.address value = .error fault) : PutFault t m object property value fault

theorem put_eq_error_iff :
    t.put m object property value = .error fault ↔ t.PutFault m object property value fault := by
  rw [put_eq]
  constructor
  · intro h
    rcases bind_eq_error_iff.1 h with hfind | ⟨slot, hfind, h⟩
    · exact .search hfind
    · have hpos := size_pos_of_find hfind
      split at h
      · next hsize => exact .byte hfind hsize h
      · split at h
        · next hsize => exact .word hfind hsize h
        · cases h
          exact .tooLarge hfind (by omega)
  · intro h
    cases h with
    | search hfind => rw [hfind, error_bind]
    | tooLarge hfind hsize => rw [hfind, ok_bind, if_neg (by omega), if_neg (by omega)]
    | byte hfind hsize hwrite => rw [hfind, ok_bind, if_pos hsize, hwrite]
    | word hfind hsize hwrite => rw [hfind, ok_bind, if_neg (by omega), if_pos hsize, hwrite]

theorem find_ne_tooLarge (other : UInt16) (number : UInt8) (size : Nat) :
    t.find m object property ≠ .error (.propertyTooLarge other number size) := by
  intro h
  obtain ⟨items, ending, hreads⟩ := exists_reads t m object
  by_cases hobject : t.HasObject object
  · rw [find_eq_answer hobject hreads, answer_eq_error_iff] at h
    cases ending <;> cases h.1
  · rw [find_of_not_hasObject hobject] at h
    cases h

theorem put_eq_tooLarge_iff {other : UInt16} {number : UInt8} {size : Nat} :
    t.put m object property value = .error (.propertyTooLarge other number size) ↔
      other = object ∧ number = property ∧ 2 < size ∧ ∃ address, t.find m object property = .ok ⟨address, size⟩ := by
  rw [put_eq_error_iff]
  constructor
  · intro h
    cases h with
    | search hfind => exact absurd hfind (find_ne_tooLarge other number size)
    | @tooLarge slot hfind hsize => exact ⟨rfl, rfl, hsize, slot.address, hfind⟩
    | byte _ _ hwrite =>
      obtain ⟨k, h | h⟩ := Memory.fault_of_writeByte hwrite
      · cases h
      · cases h
    | word _ _ hwrite =>
      obtain ⟨k, h | h⟩ := Memory.fault_of_writeWord hwrite
      · cases h
      · cases h
  · rintro ⟨rfl, rfl, hsize, address, hfind⟩
    exact .tooLarge hfind hsize

/-! ### The list and the value after a write -/

/-- The number that a property of one or two bytes shows. -/
def shown (t : PropertyTable) (m : Memory) (object : UInt16) (property : UInt8) : Except Fault Nat := do
  let slot ← t.find m object property
  if slot.size = 1 then
    let byte ← m.readByte slot.address
    return byte.toNat
  else
    let word ← m.readWord slot.address
    return word.toNat

/-- Whether a slot leaves out the word that points to an object's properties. -/
def ClearOfPointer (t : PropertyTable) (object : UInt16) (slot : Slot) : Prop :=
  t.pointerAddress object + 2 ≤ slot.address ∨ slot.address + slot.size ≤ t.pointerAddress object

namespace Filled

theorem find_eq (h : Filled m slot value m') (hfind : t.find m object property = .ok slot)
    (hclear : t.ClearOfPointer object slot) (other : UInt8) : t.find m' object other = t.find m object other := by
  obtain ⟨items, ending, hreads⟩ := exists_reads t m object
  obtain ⟨item, hitem, rfl⟩ := hreads.exists_item hfind
  exact find_eq_of_reads hreads (hreads.of_data hitem hclear h.outside) h.size other

theorem shown_eq (h : Filled m slot value m') (hfind : t.find m' object property = .ok slot) :
    t.shown m' object property = .ok (if slot.size = 1 then value.toNat % 256 else value.toNat) := by
  rw [shown, hfind, ok_bind]
  rcases h.data with ⟨hsize, hbyte⟩ | ⟨hsize, hhigh, hlow⟩
  · rw [if_pos hsize, if_pos hsize, Memory.readByte_eq_ok_iff.2 hbyte, ok_bind, Word.toNat_low]
    rfl
  · have hword := Memory.readWord_eq_ok_iff.2 ⟨_, _, hhigh, hlow, (Word.ofBytes_high_low value).symm⟩
    have hne : slot.size ≠ 1 := by omega
    rw [if_neg hne, if_neg hne, hword, ok_bind]
    rfl

end Filled

/-- What is known of a write of a value to an object's property. -/
structure WritesDataOnly (t : PropertyTable) (m : Memory) (object : UInt16) (property : UInt8) (value : UInt16) :
    Prop where
  of_ok : ∀ m', t.put m object property value = .ok m' →
    ∃ slot, t.find m object property = .ok slot ∧ Filled m slot value m' ∧
      (t.ClearOfPointer object slot →
        (∀ other, t.find m' object other = t.find m object other) ∧
        t.shown m' object property = .ok (if slot.size = 1 then value.toNat % 256 else value.toNat))
  fails_iff : ∀ fault, t.put m object property value = .error fault ↔ t.PutFault m object property value fault
  tooLarge_iff : ∀ other number size,
    t.put m object property value = .error (.propertyTooLarge other number size) ↔
      other = object ∧ number = property ∧ 2 < size ∧ ∃ address, t.find m object property = .ok ⟨address, size⟩
  /-- A machine with this memory and this table takes over the memory that is written. -/
  machine_of_ok : ∀ (machine : Machine) (m' : Memory), machine.memory = m → machine.objects = .table t →
    t.put m object property value = .ok m' →
    (Action.putProperty object property value).report machine = ⟨.ok (), { machine with memory := m' }, []⟩
  /-- A write that fails leaves the machine as it was. -/
  machine_of_error : ∀ (machine : Machine) (fault : Fault), machine.memory = m → machine.objects = .table t →
    t.put m object property value = .error fault →
    (Action.putProperty object property value).report machine = ⟨.error fault, machine, []⟩

theorem report_of_table {machine : Machine} (ht : machine.objects = .table t) :
    (Action.putProperty object property value).report machine =
      .attempt machine [] ((t.put machine.memory object property value).map fun memory => { machine with memory }) := by
  rw [Action.report_putProperty]
  show Report.attempt machine [] (machine.put? object property value) = _
  rw [Machine.put?, ht]

/-- **A property write changes the data of the property and nothing else.**  If it succeeds, the property had one byte of
data or two; they are the low byte of the value or the whole value, high byte first, and all others are what they were.  If
the data leaves out the word that points to the object's list, every search in that list comes to what it came to before,
and the property shows the value.  If it fails, that is by the fault of the search, because the property found has more
than two bytes, or by the fault of the write to memory, and memory is what it was. -/
theorem put_writes_data_only (t : PropertyTable) (m : Memory) (object : UInt16) (property : UInt8) (value : UInt16) :
    t.WritesDataOnly m object property value where
  of_ok m' h := by
    obtain ⟨slot, hfind, hfilled⟩ := filled_of_put h
    refine ⟨slot, hfind, hfilled, fun hclear => ?_⟩
    have hsame := hfilled.find_eq hfind hclear
    exact ⟨hsame, hfilled.shown_eq ((hsame property).trans hfind)⟩
  fails_iff _ := put_eq_error_iff
  tooLarge_iff _ _ _ := put_eq_tooLarge_iff
  machine_of_ok machine m' hm ht h := by
    rw [report_of_table ht, hm, h, map_ok, Report.attempt_ok]
  machine_of_error machine fault hm ht h := by
    rw [report_of_table ht, hm, h, map_error, Report.attempt_error]

-- the data of property 5 of object 1 stands at 73 and 74, behind the pointer at 69
example :
    let m : Memory := ⟨Array.replicate 69 0 ++ #[0, 71, 0, 0x25, 1, 2, 0], 76⟩
    (PropertyTable.mk 3 0).put m 1 5 0xBEEF = .ok ⟨Array.replicate 69 0 ++ #[0, 71, 0, 0x25, 0xBE, 0xEF, 0], 76⟩ := by
  cbv

end

end PropertyTable

end ZMachine
