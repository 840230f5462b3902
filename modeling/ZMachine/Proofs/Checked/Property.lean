import ZMachine.Proofs.Checked.Access
import ZMachine.Proofs.Effect

/-!
# Checked property writes

A property write walks through a list in the image that the story may have filled with anything.  With all checks made the
walk is not stopped, neither by an address that is too large nor by a list that does not end.

* `Machine.Bounded`: the sizes that keep the addresses in range;
* `Checked.findFrom`, `Checked.passes_findFrom`: the walk;
* `Checked.put`, `Checked.passes_put`: the write.
-/

namespace ZMachine

/-- A machine with an image of fewer than 2³² bytes, and an object table at the address that a word can give. -/
structure Machine.Bounded (m : Machine) : Prop where
  size : m.memory.size < UInt32.size
  table : ∀ t, m.objects = .table t → t.address < UInt16.size

namespace Checked

variable {t : PropertyTable} {m : Memory} {object value : UInt16} {property : UInt8} {address : Nat}

/-- The address of an object's entry. -/
def objectAddress (t : PropertyTable) (object : UInt16) : Checked Nat := do
  if object = 0 ∨ t.maxObject < object.toNat then
    throw (.invalidObject object)
  else
    let defaults ← product UInt64.size t.defaults 2
    let tree ← sum UInt64.size t.address defaults
    let before ← difference object.toNat 1
    let offset ← product UInt64.size before t.entrySize
    sum UInt64.size tree offset

/-- The header of the property at an address. -/
def entryAt (t : PropertyTable) (m : Memory) (address : Nat) : Checked PropertyTable.Entry := do
  let first ← m.readByte address
  if t.isSmall then
    let size ← sum UInt64.size (first.toNat / 32) 1
    return ⟨UInt8.ofNat (first.toNat % 32), size, 1⟩
  else
    if first.toNat / 128 = 1 then
      let next ← sum UInt64.size address 1
      let second ← m.readByte next
      let size := second.toNat % 64
      return ⟨UInt8.ofNat (first.toNat % 64), if size = 0 then 64 else size, 2⟩
    else
      return ⟨UInt8.ofNat (first.toNat % 64), if first.toNat / 64 % 2 = 1 then 2 else 1, 1⟩

/-- The data of the property with a number, in the list that goes on at an address.  A walk of more steps than it is given
would be stopped too. -/
def findFrom (t : PropertyTable) (m : Memory) (object : UInt16) (property : UInt8) : Nat → Nat → Checked Slot
  | 0, _ => (none : Option Slot)
  | steps + 1, address => do
    let byte ← m.readByte address
    if byte = 0 then
      throw (.propertyNotFound object property)
    else
      let e ← entryAt t m address
      if e.number = property then
        let start ← sum UInt64.size address e.headerSize
        return ⟨start, e.size⟩
      else
        let length ← sum UInt64.size e.headerSize e.size
        let next ← sum UInt64.size address length
        findFrom t m object property steps next

/-- Where the data of an object's property stands. -/
def find (t : PropertyTable) (m : Memory) (object : UInt16) (property : UInt8) : Checked Slot := do
  let entry ← objectAddress t object
  let pointer ← sum UInt64.size entry t.pointerOffset
  let properties ← readWord m pointer
  let nameWords ← m.readByte properties.toNat
  let nameSize ← product UInt64.size nameWords.toNat 2
  let name ← sum UInt64.size properties.toNat 1
  let first ← sum UInt64.size name nameSize
  findFrom t m object property (m.size + 1) first

/-- Overwrite a property. -/
def putTable (t : PropertyTable) (m : Memory) (object : UInt16) (property : UInt8) (value : UInt16) : Checked Memory := do
  let slot ← find t m object property
  if slot.size = 1 then
    writeByte m slot.address (Word.low value)
  else if slot.size = 2 then
    writeWord m slot.address value
  else
    throw (.propertyTooLarge object property slot.size)

/-- Overwrite a property in the object model. -/
def put (m : Machine) (object : UInt16) (property : UInt8) (value : UInt16) : Checked Machine :=
  match m.objects with
  | .table t => (fun memory => { m with memory }) <$> putTable t m.memory object property value
  | .ledger writes => return { m with objects := .ledger (⟨object, property, value⟩ :: writes) }

theorem sizes_le (t : PropertyTable) : t.defaults ≤ 63 ∧ t.entrySize ≤ 14 ∧ t.pointerOffset ≤ 12 := by
  unfold PropertyTable.defaults PropertyTable.entrySize PropertyTable.pointerOffset
  cases t.isSmall <;> decide

theorem objectAddress_lt (ht : t.address < UInt16.size) (h : t.objectAddress object = .ok address) :
    address < 0x200000 := by
  unfold PropertyTable.objectAddress at h
  rw [guarded_eq_ok_iff] at h
  obtain ⟨-, rfl⟩ := h
  obtain ⟨hdefaults, hentry, -⟩ := sizes_le t
  have ht : t.address < 65536 := ht
  have hobject := object.toNat_lt
  have hmul : (object.toNat - 1) * t.entrySize ≤ 65535 * 14 := Nat.mul_le_mul (by omega) hentry
  omega

theorem passes_objectAddress (ht : t.address < UInt16.size) :
    Passes (objectAddress t object) (t.objectAddress object) := by
  refine .ite (fun _ => .throw _) fun hvalid => ?_
  obtain ⟨hdefaults, hentry, -⟩ := sizes_le t
  have ht : t.address < 65536 := ht
  have hobject := object.toNat_lt
  have hpos : 1 ≤ object.toNat := by
    have : object.toNat ≠ 0 := fun h => hvalid (.inl (UInt16.toNat_inj.1 h))
    omega
  have hmul : (object.toNat - 1) * t.entrySize ≤ 65535 * 14 := Nat.mul_le_mul (by omega) hentry
  refine .check (product_eq (lt_limit (by omega))) (.check (sum_eq (lt_limit (by omega))) ?_)
  refine .check (difference_eq hpos) (.check (product_eq (lt_limit (by omega))) ?_)
  exact .checked (sum_eq (lt_limit (by omega)))

theorem passes_entryAt (h : address + 1 < UInt64.size) : Passes (entryAt t m address) (t.entryAt m address) := by
  refine .bind (.lift _) fun first _ => ?_
  have hfirst := first.toNat_lt
  refine .ite (fun _ => .check (sum_eq (lt_limit (by omega))) (.pure _)) fun _ => ?_
  refine .ite (fun _ => .check (sum_eq h) ?_) fun _ => .pure _
  exact .bind (.lift _) fun second _ => .pure _

theorem entryAt_bounds {e : PropertyTable.Entry} (h : t.entryAt m address = .ok e) : e.headerSize ≤ 2 ∧ e.size ≤ 64 := by
  obtain ⟨first, -, h⟩ := bind_eq_ok_iff.1 h
  have hfirst := first.toNat_lt
  split at h
  · cases h
    exact ⟨Nat.le_succ 1, show first.toNat / 32 + 1 ≤ 64 by omega⟩
  · dsimp only at h
    split at h
    · obtain ⟨second, -, h⟩ := bind_eq_ok_iff.1 h
      cases h
      refine ⟨Nat.le_refl 2, ?_⟩
      dsimp only
      split <;> omega
    · cases h
      refine ⟨Nat.le_succ 1, ?_⟩
      dsimp only
      split <;> omega

/-- The walk ends before the steps run out: each of them goes on to a later address, and beyond the end of the image there
is no next one. -/
theorem passes_findFrom {steps : Nat} (hsize : m.size < UInt32.size) (hnear : address < m.size + 0x11000)
    (hpos : 0 < steps) (hsteps : m.size < address + steps) :
    Passes (findFrom t m object property steps address) (t.findFrom m object property address) := by
  have hsize : m.size < 4294967296 := hsize
  induction steps generalizing address with
  | zero => omega
  | succ steps ih =>
    rw [PropertyTable.findFrom_eq]
    refine .bind (.lift _) fun byte hbyte => .ite (fun _ => .throw _) fun _ => ?_
    have hlt := PropertyTable.lt_size_of_readByte hbyte
    refine .bind (passes_entryAt (lt_limit (by omega))) fun e he => ?_
    have hheader := PropertyTable.entryAt_headerSize_pos he
    obtain ⟨hheader', hdata⟩ := entryAt_bounds he
    refine .ite (fun _ => .check (sum_eq (lt_limit (by omega))) (.pure _)) fun _ => ?_
    refine .check (sum_eq (lt_limit (by omega))) (.check (sum_eq (lt_limit (by omega))) ?_)
    -- this property stands in the image and is short, so the next address is not far beyond its end
    exact ih (by omega) (by omega) (by omega)

theorem passes_find (ht : t.address < UInt16.size) (hsize : m.size < UInt32.size) :
    Passes (find t m object property) (t.find m object property) := by
  refine .bind (passes_objectAddress ht) fun entry hentry => ?_
  have hlt := objectAddress_lt ht hentry
  obtain ⟨-, -, hoffset⟩ := sizes_le t
  refine .check (sum_eq (lt_limit (by omega))) (.bind (passes_readWord (lt_limit (by omega))) fun properties _ => ?_)
  refine .bind (.lift _) fun nameWords _ => ?_
  have hproperties := properties.toNat_lt
  have hwords := nameWords.toNat_lt
  refine .check (product_eq (lt_limit (by omega))) (.check (sum_eq (lt_limit (by omega))) ?_)
  exact .check (sum_eq (lt_limit (by omega))) (passes_findFrom hsize (by omega) (Nat.succ_pos _) (by omega))

/-- The data of a property stands close to the image. -/
theorem findFrom_lt {slot : Slot} (h : t.findFrom m object property address = .ok slot) : slot.address < m.size + 2 := by
  fun_induction PropertyTable.findFrom t m object property address with
  | case1 | case2 | case3 => cases h
  | case4 address byte hb hne e he hn =>
    cases h
    have hlt := PropertyTable.lt_size_of_readByte hb
    have hheader := (entryAt_bounds he).1
    show address + e.headerSize < m.size + 2
    omega
  | case5 address byte hb hne e he hn ih => exact ih h

theorem passes_putTable (ht : t.address < UInt16.size) (hsize : m.size < UInt32.size) :
    Passes (putTable t m object property value) (t.put m object property value) := by
  rw [t.put_eq]
  refine .bind (passes_find ht hsize) fun slot hslot => ?_
  have hlt : slot.address < m.size + 2 := by
    obtain ⟨entry, -, hslot⟩ := bind_eq_ok_iff.1 hslot
    obtain ⟨properties, -, hslot⟩ := bind_eq_ok_iff.1 hslot
    obtain ⟨nameWords, -, hslot⟩ := bind_eq_ok_iff.1 hslot
    exact findFrom_lt hslot
  have hsize : m.size < 4294967296 := hsize
  refine .ite (fun _ => passes_writeByte _) fun _ => .ite (fun _ => passes_writeWord (lt_limit (by omega)) value) ?_
  exact fun _ => .throw _

theorem passes_put {m : Machine} (hm : m.Bounded) :
    Passes (put m object property value) (m.put? object property value) := by
  unfold put Machine.put?
  cases ho : m.objects with
  | table t => exact .map (passes_putTable (hm.table t ho) hm.size) _
  | ledger writes => exact .pure _

end Checked

end ZMachine
