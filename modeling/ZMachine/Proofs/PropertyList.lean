import ZMachine.Proofs.Memory

/-!
# Lists of properties

The properties of an object, read from an image as its layout has it, without a property to look for: where the list starts,
the properties in their order, and how the list ends.  An image may hold anything, so a list need not end with a zero byte;
it then ends where a byte is missing.

* `PropertyTable.headAt`: what stands at an address of a list, a property or the end of the list;
* `PropertyTable.Lists`, `PropertyTable.exists_lists`, `PropertyTable.Lists.unique`: every list has one reading;
* `PropertyTable.Lists.congr`: the reading does not depend on the data of the properties;
* `PropertyTable.findFrom_eq_answer`: a search through the image is a search through the reading;
* `PropertyTable.find_agrees_with_list`: the whole search.
-/

namespace ZMachine.PropertyTable

/-! ### What stands at an address -/

/-- A property in a list, with its number and the place of its data. -/
structure Item where
  number : UInt8
  slot : Slot
deriving DecidableEq, Repr

/-- Where the list goes on after a property. -/
def Item.next (item : Item) : Nat :=
  item.slot.address + item.slot.size

/-- How the reading of a list ends: with a zero byte, or for want of the byte at an address. -/
inductive Ending where
  | closed
  | cut (address : Nat)
deriving DecidableEq, Repr

/-- The fault of a search that comes to the end of a list. -/
def Ending.fault (object : UInt16) (property : UInt8) (size : Nat) : Ending → Fault
  | .closed => .propertyNotFound object property
  | .cut address => .outOfBounds address size

/-- The property at an address of a list, or the end of the list.  Up to version 3 the first byte has the number in bits 0
to 4 and the size less one in bits 5 to 7.  Later the number is in bits 0 to 5; if bit 7 is set, the size is in bits 0 to 5
of a second byte, where 0 means 64, and if not, bit 6 tells two bytes of data from one. -/
def headAt (version : UInt8) (bytes : Array UInt8) (address : Nat) : Except Ending Item :=
  match bytes[address]? with
  | none => .error (.cut address)
  | some first =>
    if first = 0 then .error .closed
    else if version ≤ 3 then .ok ⟨first &&& 0x1F, ⟨address + 1, (first >>> 5).toNat + 1⟩⟩
    else if first.toNat.testBit 7 then
      match bytes[address + 1]? with
      | none => .error (.cut (address + 1))
      | some second =>
        let size := (second &&& 0x3F).toNat
        .ok ⟨first &&& 0x3F, ⟨address + 2, if size = 0 then 64 else size⟩⟩
    else .ok ⟨first &&& 0x3F, ⟨address + 1, if first.toNat.testBit 6 then 2 else 1⟩⟩

section Bits

variable (byte : UInt8)

theorem and_31 : byte &&& 0x1F = UInt8.ofNat (byte.toNat % 32) := by
  apply UInt8.toNat_inj.1
  rw [UInt8.toNat_and, UInt8.toNat_ofNat']
  exact (Nat.and_two_pow_sub_one_eq_mod byte.toNat 5).trans (by omega)

theorem and_63 : byte &&& 0x3F = UInt8.ofNat (byte.toNat % 64) := by
  apply UInt8.toNat_inj.1
  rw [UInt8.toNat_and, UInt8.toNat_ofNat']
  exact (Nat.and_two_pow_sub_one_eq_mod byte.toNat 6).trans (by omega)

theorem testBit_7 : byte.toNat.testBit 7 = decide (byte.toNat / 128 = 1) := by
  have := byte.toNat_lt
  rw [Nat.testBit_eq_decide_div_mod_eq]
  congr 1
  simp only [eq_iff_iff]
  omega

theorem testBit_6 : byte.toNat.testBit 6 = decide (byte.toNat / 64 % 2 = 1) :=
  Nat.testBit_eq_decide_div_mod_eq

end Bits

/-- A step of the walk, told by what stands at its address. -/
theorem findFrom_headAt (t : PropertyTable) (m : Memory) (object : UInt16) (property : UInt8) (address : Nat) :
    t.findFrom m object property address =
      match headAt t.version m.bytes address with
      | .error ending => .error (ending.fault object property m.size)
      | .ok item => if item.number = property then .ok item.slot else t.findFrom m object property item.next := by
  rw [findFrom_eq]
  unfold headAt entryAt Memory.readByte
  cases hfirst : m.bytes[address]? with
  | none => rfl
  | some first =>
    by_cases h0 : first = 0
    · simp [h0, Ending.fault]
    · by_cases hsmall : t.version ≤ 3
      · simp [h0, hsmall, isSmall, and_31, Nat.shiftRight_eq_div_pow, Item.next, pure, Except.pure, Nat.add_assoc]
      · by_cases h7 : first.toNat / 128 = 1
        · cases hsecond : m.bytes[address + 1]? with
          | none => simp [h0, hsmall, isSmall, testBit_7, h7, Ending.fault]
          | some second =>
            have hmod : second.toNat % 64 % 256 = second.toNat % 64 := by omega
            simp [h0, hsmall, isSmall, testBit_7, h7, and_63, hmod, Item.next, pure, Except.pure, Nat.add_assoc]
        · simp [h0, hsmall, isSmall, testBit_7, testBit_6, h7, and_63, Item.next, pure, Except.pure, Nat.add_assoc]

/-- A property starts inside the image, its data stands behind its header of one or two bytes, and there is some. -/
theorem headAt_bounds {version : UInt8} {bytes : Array UInt8} {address : Nat} {item : Item}
    (h : headAt version bytes address = .ok item) :
    address < bytes.size ∧ address < item.slot.address ∧ item.slot.address ≤ address + 2 ∧ 0 < item.slot.size := by
  unfold headAt at h
  split at h
  · cases h
  · next first hfirst =>
    have hlt := (Array.getElem?_eq_some_iff.1 hfirst).1
    split at h
    · cases h
    · split at h
      · cases h
        exact ⟨hlt, Nat.lt_succ_self _, Nat.le_succ _, Nat.succ_pos _⟩
      · split at h
        · split at h
          · cases h
          · cases h
            refine ⟨hlt, Nat.lt_add_of_pos_right (by decide), Nat.le_refl _, ?_⟩
            dsimp only
            split <;> omega
        · cases h
          refine ⟨hlt, Nat.lt_succ_self _, Nat.le_succ _, ?_⟩
          dsimp only
          split <;> omega

/-- A property depends on the bytes of its header alone. -/
theorem headAt_of_ok {version : UInt8} {bytes bytes' : Array UInt8} {address : Nat} {item : Item}
    (h : headAt version bytes address = .ok item)
    (hsame : ∀ k, address ≤ k → k < item.slot.address → bytes'[k]? = bytes[k]?) :
    headAt version bytes' address = .ok item := by
  have hfirst : bytes'[address]? = bytes[address]? := hsame address (Nat.le_refl _) (headAt_bounds h).2.1
  unfold headAt at h ⊢
  rw [hfirst]
  cases hb : bytes[address]? with
  | none =>
    rw [hb] at h
    cases h
  | some first =>
    rw [hb] at h
    by_cases hsized : first ≠ 0 ∧ ¬version ≤ 3 ∧ first.toNat.testBit 7
    · obtain ⟨h0, hversion, h7⟩ := hsized
      simp only [if_neg h0, if_neg hversion, if_pos h7] at h ⊢
      cases hs : bytes[address + 1]? with
      | none =>
        rw [hs] at h
        cases h
      | some second =>
        rw [hs] at h
        cases h
        rw [hsame (address + 1) (Nat.le_succ _) (Nat.lt_succ_self _), hs]
    · -- no second byte is looked at
      rw [← h]
      dsimp only
      split
      · rfl
      · split
        · rfl
        · split
          · next h0 hversion h7 => exact absurd ⟨h0, hversion, h7⟩ hsized
          · rfl

theorem headAt_eq {version : UInt8} {bytes bytes' : Array UInt8} {address : Nat}
    (hsame : ∀ k, address ≤ k → bytes'[k]? = bytes[k]?) : headAt version bytes' address = headAt version bytes address := by
  unfold headAt
  rw [hsame address (Nat.le_refl _), hsame (address + 1) (Nat.le_succ _)]

/-! ### Whole lists -/

/-- The reading of the list that starts at an address: the properties in their order, and how the list ends. -/
inductive Lists (version : UInt8) (bytes : Array UInt8) : Nat → List Item → Ending → Prop
  | ends {address : Nat} {ending : Ending} (h : headAt version bytes address = .error ending) :
      Lists version bytes address [] ending
  | item {address : Nat} {item : Item} {items : List Item} {ending : Ending}
      (h : headAt version bytes address = .ok item) (rest : Lists version bytes item.next items ending) :
      Lists version bytes address (item :: items) ending

section

variable {version : UInt8} {bytes bytes' : Array UInt8} {address : Nat} {items : List Item} {ending : Ending}

/-- **Every list comes to an end.**  Each property makes the walk go on at a later address, and none stands outside the
image. -/
theorem exists_lists (version : UInt8) (bytes : Array UInt8) (address : Nat) :
    ∃ items ending, Lists version bytes address items ending := by
  induction hleft : bytes.size - address using Nat.strongRecOn generalizing address with
  | ind left ih =>
    cases hhead : headAt version bytes address with
    | error ending => exact ⟨[], ending, .ends hhead⟩
    | ok item =>
      obtain ⟨hlt, hdata, -, hsize⟩ := headAt_bounds hhead
      have hnext : item.next = item.slot.address + item.slot.size := rfl
      obtain ⟨items, ending, hrest⟩ := ih (bytes.size - item.next) (by omega) item.next rfl
      exact ⟨item :: items, ending, .item hhead hrest⟩

-- a size in a second byte, two bytes of data by bit 6, and one byte
example :
    Lists 5 #[0x85, 0x02, 1, 2, 0x47, 3, 4, 0x09, 5, 0] 0 [⟨5, 2, 2⟩, ⟨7, 5, 2⟩, ⟨9, 8, 1⟩] .closed :=
  .item rfl (.item rfl (.item rfl (.ends rfl)))

/-- A list has one reading. -/
theorem Lists.unique {items' : List Item} {ending' : Ending} (h : Lists version bytes address items ending)
    (h' : Lists version bytes address items' ending') : items' = items ∧ ending' = ending := by
  induction h generalizing items' with
  | ends hhead =>
    cases h' with
    | ends hhead' =>
      cases hhead.symm.trans hhead'
      exact ⟨rfl, rfl⟩
    | item hhead' _ => cases hhead.symm.trans hhead'
  | item hhead _ ih =>
    cases h' with
    | ends hhead' => cases hhead.symm.trans hhead'
    | item hhead' rest' =>
      cases hhead.symm.trans hhead'
      obtain ⟨rfl, rfl⟩ := ih rest'
      exact ⟨rfl, rfl⟩

/-- Each property of a list takes up two bytes of the image or more, the last one perhaps only one of them. -/
theorem Lists.length_le (h : Lists version bytes address items ending) :
    items = [] ∨ address + 2 * items.length ≤ bytes.size + 1 := by
  induction h with
  | ends _ => exact .inl rfl
  | @item address item items ending hhead _ ih =>
    right
    obtain ⟨hlt, hdata, -, hsize⟩ := headAt_bounds hhead
    rcases ih with rfl | ih
    · rw [List.length_singleton]
      omega
    · unfold Item.next at ih
      rw [List.length_cons]
      omega

/-- The data of the properties stands behind the start of the list, and each has some. -/
theorem Lists.slot_bounds (h : Lists version bytes address items ending) {item : Item} (hitem : item ∈ items) :
    address < item.slot.address ∧ 0 < item.slot.size := by
  induction h with
  | ends _ => cases hitem
  | @item address first items ending hhead _ ih =>
    obtain ⟨-, hdata, -, hsize⟩ := headAt_bounds hhead
    rcases List.mem_cons.1 hitem with rfl | hitem
    · exact ⟨hdata, hsize⟩
    · obtain ⟨hlater, hpos⟩ := ih hitem
      unfold Item.next at hlater
      exact ⟨by omega, hpos⟩

/-- **The reading of a list does not depend on the data of its properties.** -/
theorem Lists.congr (h : Lists version bytes address items ending)
    (hsame : ∀ k, address ≤ k → (∀ item ∈ items, k < item.slot.address ∨ item.next ≤ k) → bytes'[k]? = bytes[k]?) :
    Lists version bytes' address items ending := by
  induction h with
  | ends hhead => exact .ends ((headAt_eq fun k hk => hsame k hk nofun).trans hhead)
  | @item address first items ending hhead hrest ih =>
    obtain ⟨-, hdata, -, -⟩ := headAt_bounds hhead
    have hnext : first.next = first.slot.address + first.slot.size := rfl
    refine .item (headAt_of_ok hhead fun k hk hk' => hsame k hk fun item hitem => ?_) (ih fun k hk houtside => ?_)
    · -- the header stands before the data of this property, and that before all the others
      rcases List.mem_cons.1 hitem with rfl | hitem
      · exact .inl hk'
      · obtain ⟨hlater, -⟩ := hrest.slot_bounds hitem
        exact .inl (by omega)
    · refine hsame k (by omega) fun item hitem => ?_
      rcases List.mem_cons.1 hitem with rfl | hitem
      · exact .inr hk
      · exact houtside item hitem

end

/-! ### Searches -/

/-- What a search for a property finds in the reading of a list: the first property with the number, or the end. -/
def answer (object : UInt16) (property : UInt8) (size : Nat) (items : List Item) (ending : Ending) : Except Fault Slot :=
  match items.find? fun item => item.number = property with
  | some item => .ok item.slot
  | none => .error (ending.fault object property size)

section

variable {t : PropertyTable} {m : Memory} {object : UInt16} {property : UInt8} {address : Nat} {items : List Item}
  {ending : Ending}

/-- **The walk through the image is a search through the reading of the list.** -/
theorem findFrom_eq_answer (h : Lists t.version m.bytes address items ending) :
    t.findFrom m object property address = answer object property m.size items ending := by
  induction h with
  | ends hhead =>
    rw [findFrom_headAt, hhead]
    rfl
  | @item address first items ending hhead _ ih =>
    rw [findFrom_headAt, hhead]
    by_cases hn : first.number = property
    · simp [answer, hn]
    · simpa [answer, hn] using ih

/-- The list of an object: where it starts, or the address of the first byte that is missing before it.  The word at an
address gives the place of a length byte, and after it come as many words of the object's short name. -/
def listStart (bytes : Array UInt8) (pointer : Nat) : Except Ending Nat :=
  match bytes[pointer]?, bytes[pointer + 1]? with
  | none, _ => .error (.cut pointer)
  | some _, none => .error (.cut (pointer + 1))
  | some hi, some lo =>
    let table := 256 * hi.toNat + lo.toNat
    match bytes[table]? with
    | none => .error (.cut table)
    | some words => .ok (table + 1 + 2 * words.toNat)

/-- Whether a number is that of an object: objects count from 1, and up to version 3 there are at most 255. -/
def HasObject (t : PropertyTable) (object : UInt16) : Prop :=
  object ≠ 0 ∧ (t.version ≤ 3 → object.toNat ≤ 255)

/-- The address of the word that points to an object's properties.  Up to version 3 there are 31 defaults of two bytes
before the entries, which have 9 bytes each; later it is 63 defaults and 14 bytes. -/
def pointerAddress (t : PropertyTable) (object : UInt16) : Nat :=
  if t.version ≤ 3 then t.address + 31 * 2 + (object.toNat - 1) * 9 + 7
  else t.address + 63 * 2 + (object.toNat - 1) * 14 + 12

/-- The reading of an object's properties. -/
inductive Reads (t : PropertyTable) (m : Memory) (object : UInt16) : List Item → Ending → Prop
  | unreadable {ending : Ending} (h : listStart m.bytes (t.pointerAddress object) = .error ending) :
      Reads t m object [] ending
  | listed {start : Nat} {items : List Item} {ending : Ending}
      (h : listStart m.bytes (t.pointerAddress object) = .ok start) (list : Lists t.version m.bytes start items ending) :
      Reads t m object items ending

theorem exists_reads (t : PropertyTable) (m : Memory) (object : UInt16) : ∃ items ending, t.Reads m object items ending := by
  cases hstart : listStart m.bytes (t.pointerAddress object) with
  | error ending => exact ⟨[], ending, .unreadable hstart⟩
  | ok start =>
    obtain ⟨items, ending, hlist⟩ := exists_lists t.version m.bytes start
    exact ⟨items, ending, .listed hstart hlist⟩

theorem Reads.unique {items' : List Item} {ending' : Ending} (h : t.Reads m object items ending)
    (h' : t.Reads m object items' ending') : items' = items ∧ ending' = ending := by
  cases h with
  | unreadable hstart =>
    cases h' with
    | unreadable hstart' =>
      cases hstart.symm.trans hstart'
      exact ⟨rfl, rfl⟩
    | listed hstart' _ => cases hstart.symm.trans hstart'
  | listed hstart list =>
    cases h' with
    | unreadable hstart' => cases hstart.symm.trans hstart'
    | listed hstart' list' =>
      cases hstart.symm.trans hstart'
      exact list.unique list'

theorem hasObject_iff : t.HasObject object ↔ ¬(object = 0 ∨ t.maxObject < object.toNat) := by
  have hlt := object.toNat_lt
  unfold HasObject maxObject isSmall
  by_cases hsmall : t.version ≤ 3
  · simp [hsmall]
  · simp [hsmall]
    omega

theorem not_hasObject_iff : ¬t.HasObject object ↔ object = 0 ∨ t.version ≤ 3 ∧ 255 < object.toNat := by
  simp only [HasObject, ne_eq, Classical.not_and_iff_not_or_not, Classical.not_not, Classical.not_imp, Nat.not_le]

theorem find_of_not_hasObject (h : ¬t.HasObject object) :
    t.find m object property = .error (.invalidObject object) := by
  rw [hasObject_iff, Classical.not_not] at h
  rw [find, objectAddress, if_pos h, error_bind]

/-- A search starts where the list of the object does. -/
theorem find_of_hasObject (h : t.HasObject object) :
    t.find m object property =
      match listStart m.bytes (t.pointerAddress object) with
      | .error ending => .error (ending.fault object property m.size)
      | .ok start => t.findFrom m object property start := by
  have hpointer : t.address + t.defaults * 2 + (object.toNat - 1) * t.entrySize + t.pointerOffset =
      t.pointerAddress object := by
    unfold defaults entrySize pointerOffset pointerAddress isSmall
    by_cases hsmall : t.version ≤ 3 <;> simp [hsmall]
  rw [find, objectAddress, if_neg (hasObject_iff.1 h), ok_bind, hpointer]
  unfold listStart Memory.readWord Memory.readByte
  cases hhi : m.bytes[t.pointerAddress object]? with
  | none => rfl
  | some hi =>
    cases hlo : m.bytes[t.pointerAddress object + 1]? with
    | none => rfl
    | some lo =>
      simp only [ok_bind, pure, Except.pure, Word.toNat_ofBytes]
      cases hwords : m.bytes[256 * hi.toNat + lo.toNat]? with
      | none => rfl
      | some words => simp only [ok_bind, Nat.mul_comm]

/-- The search for an object's property is a search through the reading of its list. -/
theorem find_eq_answer (hobject : t.HasObject object) (h : t.Reads m object items ending) :
    t.find m object property = answer object property m.size items ending := by
  rw [find_of_hasObject hobject]
  cases h with
  | unreadable hstart =>
    rw [hstart]
    rfl
  | listed hstart list =>
    rw [hstart]
    exact findFrom_eq_answer list

theorem Reads.length_le (h : t.Reads m object items ending) : 2 * items.length ≤ m.size + 1 := by
  cases h with
  | unreadable _ => exact Nat.zero_le _
  | listed _ list =>
    unfold Memory.size
    rcases list.length_le with rfl | hlength
    · exact Nat.zero_le _
    · omega

theorem answer_eq_ok_iff {size : Nat} {slot : Slot} :
    answer object property size items ending = .ok slot ↔
      ∃ before item after, items = before ++ item :: after ∧ (∀ other ∈ before, other.number ≠ property) ∧
        item.number = property ∧ item.slot = slot := by
  unfold answer
  cases hfind : items.find? fun item => item.number = property with
  | none =>
    refine ⟨nofun, ?_⟩
    rintro ⟨before, item, after, rfl, -, hnumber, -⟩
    have := List.find?_eq_none.1 hfind item (by simp)
    simp [hnumber] at this
  | some first =>
    obtain ⟨hfirst, before, after, rfl, hbefore⟩ := List.find?_eq_some_iff_append.1 hfind
    refine ⟨fun h => ⟨before, first, after, rfl, ?_, by simpa using hfirst, Except.ok.inj h⟩, ?_⟩
    · simpa using hbefore
    · rintro ⟨before', item, after', hitems, hbefore', hnumber, rfl⟩
      rw [hitems, List.find?_append, List.find?_eq_none.2 (by simpa using hbefore'), Option.none_or,
        List.find?_cons_of_pos (by simpa using hnumber)] at hfind
      cases hfind
      rfl

theorem answer_eq_error_iff {size : Nat} {fault : Fault} :
    answer object property size items ending = .error fault ↔
      ending.fault object property size = fault ∧ ∀ item ∈ items, item.number ≠ property := by
  unfold answer
  cases hfind : items.find? fun item => item.number = property with
  | none =>
    have hnone : ∀ item ∈ items, item.number ≠ property := by simpa using hfind
    exact ⟨fun h => ⟨Except.error.inj h, hnone⟩, fun h => congrArg Except.error h.1⟩
  | some first =>
    refine ⟨nofun, fun h => ?_⟩
    have hfirst : first.number = property := by simpa using List.find?_some hfind
    exact absurd hfirst (h.2 first (List.mem_of_find?_eq_some hfind))

/-- What a search for an object's property comes to, given the reading of the object's list. -/
structure FindsFirst (t : PropertyTable) (m : Memory) (object : UInt16) (property : UInt8) (items : List Item)
    (ending : Ending) : Prop where
  found_iff : ∀ slot, t.find m object property = .ok slot ↔ t.HasObject object ∧
    ∃ before item after, items = before ++ item :: after ∧ (∀ other ∈ before, other.number ≠ property) ∧
      item.number = property ∧ item.slot = slot
  notFound_iff : t.find m object property = .error (.propertyNotFound object property) ↔
    t.HasObject object ∧ ending = .closed ∧ ∀ item ∈ items, item.number ≠ property
  outOfBounds_iff : ∀ address, t.find m object property = .error (.outOfBounds address m.size) ↔
    t.HasObject object ∧ ending = .cut address ∧ ∀ item ∈ items, item.number ≠ property
  invalid_iff : t.find m object property = .error (.invalidObject object) ↔
    object = 0 ∨ t.version ≤ 3 ∧ 255 < object.toNat

theorem Reads.findsFirst (h : t.Reads m object items ending) : t.FindsFirst m object property items ending := by
  by_cases hobject : t.HasObject object
  · have hfind : t.find m object property = answer object property m.size items ending := find_eq_answer hobject h
    refine ⟨fun slot => ?_, ?_, fun address => ?_, ?_⟩
    · rw [hfind, answer_eq_ok_iff, and_iff_right hobject]
    · rw [hfind, answer_eq_error_iff, and_iff_right hobject]
      cases ending <;> simp [Ending.fault]
    · rw [hfind, answer_eq_error_iff, and_iff_right hobject]
      cases ending <;> simp [Ending.fault]
    · rw [hfind, answer_eq_error_iff, ← not_hasObject_iff]
      cases ending <;> simp [Ending.fault, hobject]
  · have hfind : t.find m object property = .error (.invalidObject object) := find_of_not_hasObject hobject
    refine ⟨fun slot => ?_, ?_, fun address => ?_, ?_⟩
    · simp [hfind, hobject]
    · simp [hfind, hobject]
    · simp [hfind, hobject]
    · simp [hfind, ← not_hasObject_iff, hobject]

/-- **A search for a property finds the first one with the number, on every image.**  An object's list has one reading,
which takes up no more than the image, and the search agrees with it: it gives the place of the first property with the
number, or says that a closed list has none, or names the byte that is missing where the list is cut short. -/
theorem find_agrees_with_list (t : PropertyTable) (m : Memory) (object : UInt16) (property : UInt8) :
    ∃ items ending, t.Reads m object items ending ∧
      (∀ items' ending', t.Reads m object items' ending' → items' = items ∧ ending' = ending) ∧
      2 * items.length ≤ m.size + 1 ∧ t.FindsFirst m object property items ending := by
  obtain ⟨items, ending, hreads⟩ := exists_reads t m object
  exact ⟨items, ending, hreads, fun _ _ hreads' => hreads.unique hreads', hreads.length_le, hreads.findsFirst⟩

end

end ZMachine.PropertyTable
