import ZMachine.Proofs.Frames
import ZMachine.Proofs.Memory

/-!
# Checked access

A second reading of what the machine does, with the widths and sizes that a story never gets to see: addresses of 64 bits,
variable numbers of 8, rows of a fixed number of places.  Before an element of a row is used, and before numbers of a fixed
width are added, subtracted or multiplied, there is a check.  A check that fails stops the machine for good, and that is no
fault the story could be told of.

* `Checked`: computations that can be stopped; `Checked.Passes`: such a computation is not stopped, and comes to the same
  as an unchecked one;
* `Checked.sum`, `Checked.difference`, `Checked.product`, `Checked.update`, `Checked.slice`: the checks;
* `Checked.codeByte`, `Checked.readWord`, `Checked.writeWord`, …: memory;
* `Checked.valueOf`, `Checked.write`, `Checked.assign`: variables.
-/

namespace ZMachine

/-- A computation that may meet a fault, or be stopped by a check. -/
abbrev Checked (α : Type) : Type :=
  ExceptT Fault Option α

namespace Checked

variable {α β : Type}

/-! ### The checks -/

/-- A sum of numbers below a limit. -/
def sum (limit a b : Nat) : Option Nat :=
  if a + b < limit then some (a + b) else none

/-- A difference of numbers that cannot be negative. -/
def difference (a b : Nat) : Option Nat :=
  if b ≤ a then some (a - b) else none

/-- A product of numbers below a limit. -/
def product (limit a b : Nat) : Option Nat :=
  if a * b < limit then some (a * b) else none

/-- A sum of signed numbers of 64 bits. -/
def signedSum (a b : Int) : Option Int :=
  if Int64.minValue.toInt ≤ a + b ∧ a + b ≤ Int64.maxValue.toInt then some (a + b) else none

/-- A place in a row of a fixed number of places. -/
def place (count n : Nat) : Option Nat :=
  if n < count then some n else none

/-- A row with another element in one of its places. -/
def update (row : Array α) (n : Nat) (a : α) : Option (Array α) :=
  if n < row.size then some (row.setIfInBounds n a) else none

/-- The first elements of a row. -/
def slice (row : List α) (count : Nat) : Option (List α) :=
  if count ≤ row.length then some (row.take count) else none

/-- The elements of a row from a place on. -/
def sliceFrom (row : List α) (n : Nat) : Option (List α) :=
  if n ≤ row.length then some (row.drop n) else none

theorem sum_eq {limit a b : Nat} (h : a + b < limit) : sum limit a b = some (a + b) :=
  if_pos h

theorem difference_eq {a b : Nat} (h : b ≤ a) : difference a b = some (a - b) :=
  if_pos h

theorem signedSum_eq {a b : Int} (hlow : -0x8000000000000000 ≤ a + b) (hhigh : a + b < 0x8000000000000000) :
    signedSum a b = some (a + b) :=
  if_pos ⟨hlow, Int.le_of_lt_add_one hhigh⟩

theorem product_eq {limit a b : Nat} (h : a * b < limit) : product limit a b = some (a * b) :=
  if_pos h

theorem place_eq {count n : Nat} (h : n < count) : place count n = some n :=
  if_pos h

theorem slice_eq {row : List α} {count : Nat} (h : count ≤ row.length) : slice row count = some (row.take count) :=
  if_pos h

theorem update_eq {row : Array α} {n : Nat} (h : n < row.size) (a : α) :
    update row n a = some (row.setIfInBounds n a) :=
  if_pos h

/-- All addresses that occur are far below the limit. -/
theorem lt_limit {n : Nat} (h : n < 0x200000000) : n < UInt64.size :=
  Nat.lt_of_lt_of_le h (by decide)

/-! ### Computations that are not stopped -/

theorem except_map_bind {γ : Type} (x : Except Fault α) (f : α → Except Fault β) (g : β → γ) :
    (x >>= f).map g = x >>= fun a => (f a).map g := by
  cases x <;> rfl

/-- A checked computation is not stopped, and comes to the given result. -/
def Passes (x : Checked α) (r : Except Fault α) : Prop :=
  x.run = some r

namespace Passes

theorem pure (a : α) : Passes (Pure.pure a) (.ok a) := rfl

theorem throw (fault : Fault) : Passes (MonadExcept.throw fault : Checked α) (.error fault) := rfl

/-- What may meet a fault but has nothing to check. -/
theorem lift (r : Except Fault α) : Passes (liftM r) r := rfl

theorem checked {o : Option α} {a : α} (ho : o = some a) : Passes (liftM o) (.ok a) := by
  subst ho
  rfl

theorem check {o : Option α} {a : α} {f : α → Checked β} {r : Except Fault β} (ho : o = some a)
    (hf : Passes (f a) r) : Passes (liftM o >>= f) r := by
  subst ho
  exact hf

theorem bind {x : Checked α} {r : Except Fault α} {f : α → Checked β} {g : α → Except Fault β} (hx : Passes x r)
    (hf : ∀ a, r = .ok a → Passes (f a) (g a)) : Passes (x >>= f) (r >>= g) := by
  have hx : x = some r := hx
  subst hx
  cases r with
  | error fault => rfl
  | ok a => exact hf a rfl

theorem map {x : Checked α} {r : Except Fault α} (hx : Passes x r) (f : α → β) : Passes (f <$> x) (r.map f) := by
  have hx : x = some r := hx
  subst hx
  cases r <;> rfl

theorem bind_map {x : Checked β} {r : Except Fault α} {f : α → β} {γ : Type} {g : β → Checked γ}
    {h : α → Except Fault γ} (hx : Passes x (r.map f)) (hg : ∀ a, r = .ok a → Passes (g (f a)) (h a)) :
    Passes (x >>= g) (r >>= h) := by
  cases r with
  | error fault => exact hx.bind (g := fun _ => .error fault) nofun
  | ok a =>
    refine (hx.bind (g := fun _ => h a) fun b hb => ?_ : Passes _ (.ok (f a) >>= fun _ => h a))
    cases hb
    exact hg a rfl

theorem ite {p : Prop} [Decidable p] {x y : Checked α} {r s : Except Fault α} (hx : p → Passes x r)
    (hy : ¬p → Passes y s) : Passes (if p then x else y) (if p then r else s) := by
  by_cases h : p
  · rw [if_pos h, if_pos h]
    exact hx h
  · rw [if_neg h, if_neg h]
    exact hy h

end Passes

/-! ### Memory -/

section Memory

variable {m : Memory} {address : Nat}

/-- A byte of an instruction.  The fault of a cut file says how many bytes there should be. -/
def codeByte (m : Memory) (part : Part) (address : Nat) : Checked UInt8 :=
  match m.bytes[address]? with
  | some byte => return byte
  | none => do
    let needed ← sum UInt64.size address 1
    throw (.truncated part needed m.size)

/-- The word whose high byte is at an address. -/
def readWord (m : Memory) (address : Nat) : Checked UInt16 := do
  let hi ← m.readByte address
  let next ← sum UInt64.size address 1
  let lo ← m.readByte next
  return Word.ofBytes hi lo

/-- Write a byte to dynamic memory. -/
def writeByte (m : Memory) (address : Nat) (byte : UInt8) : Checked Memory := do
  m.checkWritable address
  let bytes ← update m.bytes address byte
  return { m with bytes }

/-- Write a word to dynamic memory. -/
def writeWord (m : Memory) (address : Nat) (word : UInt16) : Checked Memory := do
  m.checkWritable address
  let next ← sum UInt64.size address 1
  m.checkWritable next
  let bytes ← update m.bytes address (Word.high word)
  let bytes ← update bytes next (Word.low word)
  return { m with bytes }

theorem passes_codeByte {part : Part} (h : address + 1 < UInt64.size) :
    Passes (codeByte m part address) (m.codeByte part address) := by
  unfold codeByte Memory.codeByte
  cases m.bytes[address]? with
  | some byte => exact .pure byte
  | none => exact .check (sum_eq h) (.throw _)

theorem passes_readWord (h : address + 1 < UInt64.size) : Passes (readWord m address) (m.readWord address) := by
  refine .bind (.lift _) fun hi _ => .check (sum_eq h) ?_
  exact .bind (.lift _) fun lo _ => .pure _

theorem passes_writeByte (byte : UInt8) : Passes (writeByte m address byte) (m.writeByte address byte) := by
  refine .bind (.lift _) fun _ hc => ?_
  obtain ⟨hs, -⟩ := Memory.checkWritable_eq_ok_iff.1 hc
  exact .check (update_eq hs byte) (.pure _)

theorem passes_writeWord (h : address + 1 < UInt64.size) (word : UInt16) :
    Passes (writeWord m address word) (m.writeWord address word) := by
  -- one check after the other, as they are made here
  have heq : m.writeWord address word =
      m.checkWritable address >>= fun _ => m.checkWritable (address + 1) >>= fun _ => .ok (m.setWord address word) := by
    unfold Memory.writeWord Memory.checkWritableWord
    cases m.checkWritable address <;> rfl
  rw [heq]
  refine .bind (.lift _) fun _ hc => .check (sum_eq h) (.bind (.lift _) fun _ hc' => ?_)
  obtain ⟨hs, -⟩ := Memory.checkWritable_eq_ok_iff.1 hc
  obtain ⟨hs', -⟩ := Memory.checkWritable_eq_ok_iff.1 hc'
  have hsize : address + 1 < (m.bytes.setIfInBounds address (Word.high word)).size := by
    rw [Array.size_setIfInBounds]
    exact hs'
  exact .check (update_eq hs _) (.check (update_eq hsize _) (.pure _))

end Memory

/-! ### Variables -/

/-- The variable with a number. -/
def variableOf (number : UInt8) : Option Variable :=
  if number = 0 then some .stack
  else if number < 16 then do
    let slot ← difference number.toNat 1
    return .localSlot (UInt8.ofNat slot)
  else do
    let index ← difference number.toNat 16
    return .globalCell (UInt8.ofNat index)

theorem variableOf_eq (number : UInt8) : variableOf number = some (.ofNumber number) := by
  unfold variableOf Variable.ofNumber
  by_cases h0 : number = 0
  · rw [if_pos h0, if_pos h0]
  · have hpos : 1 ≤ number.toNat := by
      have : number.toNat ≠ 0 := fun h => h0 (UInt8.toNat_inj.1 h)
      omega
    rw [if_neg h0, if_neg h0]
    by_cases h16 : number < 16
    · rw [if_pos h16, if_pos h16, difference_eq hpos]
      show some (Variable.localSlot (UInt8.ofNat (number.toNat - 1))) = _
      rw [UInt8.ofNat_sub hpos, UInt8.ofNat_toNat]
      rfl
    · have hge : 16 ≤ number.toNat := by
        have : ¬number.toNat < 16 := h16
        omega
      rw [if_neg h16, if_neg h16, difference_eq hge]
      show some (Variable.globalCell (UInt8.ofNat (number.toNat - 16))) = _
      rw [UInt8.ofNat_sub hge, UInt8.ofNat_toNat]
      rfl

/-- The current frame is the last one. -/
def current (c : CallStack) : Option Frame := do
  let last ← difference c.frames.length 1
  c.frames[last]?

/-- The contents of a local slot. -/
def localSlot (f : Frame) (slot : UInt8) : Option UInt16 :=
  f.locals[slot.toNat]?

/-- The value of a declared local. -/
def readLocal (f : Frame) (slot : UInt8) : Checked UInt16 := do
  if slot < f.declared then
    localSlot f slot
  else
    let number ← sum UInt8.size slot.toNat 1
    throw (.undeclaredLocal (UInt8.ofNat number) f.declared)

/-- Set a declared local. -/
def writeLocal (f : Frame) (slot : UInt8) (value : UInt16) : Checked Frame := do
  if slot < f.declared then
    let _old ← localSlot f slot
    return { f with locals := f.locals.setIfInBounds slot.toNat value }
  else
    let number ← sum UInt8.size slot.toNat 1
    throw (.undeclaredLocal (UInt8.ofNat number) f.declared)

/-- Address of a global variable. -/
def globalAddress (m : Machine) (index : UInt8) : Option Nat := do
  let offset ← product UInt64.size index.toNat 2
  sum UInt64.size m.header.globals.toNat offset

/-- The value that a variable shows when it is named by a value. -/
def valueOf (m : Machine) : Variable → Checked UInt16
  | .stack => do
    let frame ← current m.calls
    frame.peek
  | .localSlot slot => do
    let frame ← current m.calls
    readLocal frame slot
  | .globalCell index => do
    let address ← globalAddress m index
    readWord m.memory address

/-- The machine with a result in a variable. -/
def write (m : Machine) (target : Variable) (value : UInt16) : Checked Machine :=
  match target with
  | .stack => do
    let frame ← current m.calls
    m.withCurrent <$> (frame.push value : Checked Frame)
  | .localSlot slot => do
    let frame ← current m.calls
    m.withCurrent <$> writeLocal frame slot value
  | .globalCell index => do
    let address ← globalAddress m index
    (fun memory => { m with memory }) <$> writeWord m.memory address value

/-- The machine with a value assigned to a variable. -/
def assign (m : Machine) (target : Variable) (value : UInt16) : Checked Machine :=
  match target with
  | .stack => do
    let frame ← current m.calls
    m.withCurrent <$> (frame.replaceTop value : Checked Frame)
  | _ => write m target value

section Variables

variable {m : Machine} {f : Frame} {slot : UInt8}

theorem current_eq (c : CallStack) : current c = some c.current := by
  unfold current
  have hpos : 1 ≤ c.frames.length := by
    rw [CallStack.length_frames]
    exact Nat.succ_pos _
  rw [difference_eq hpos]
  show c.frames[c.frames.length - 1]? = _
  rw [CallStack.frames_eq, List.length_append, List.length_singleton, Nat.add_sub_cancel, List.getElem?_concat_length]

theorem slot_lt {number : UInt8} (h : Variable.ofNumber number = .localSlot slot) : slot.toNat < localLimit := by
  unfold Variable.ofNumber at h
  by_cases h0 : number = 0
  · rw [if_pos h0] at h
    cases h
  · rw [if_neg h0] at h
    by_cases h16 : number < 16
    · rw [if_pos h16] at h
      cases h
      have hlt : number.toNat < 16 := h16
      have hpos : number.toNat ≠ 0 := fun h => h0 (UInt8.toNat_inj.1 h)
      have hle : (1 : UInt8) ≤ number := show 1 ≤ number.toNat by omega
      rw [UInt8.toNat_sub_of_le _ _ hle]
      show number.toNat - 1 < 15
      omega
    · rw [if_neg h16] at h
      cases h

/-- The number of a local is one more than its slot. -/
theorem number_eq (h : slot.toNat < localLimit) :
    sum UInt8.size slot.toNat 1 = some (slot.toNat + 1) ∧ UInt8.ofNat (slot.toNat + 1) = slot + 1 := by
  refine ⟨sum_eq ?_, ?_⟩
  · have : slot.toNat < 15 := h
    show slot.toNat + 1 < 256
    omega
  · rw [UInt8.ofNat_add, UInt8.ofNat_toNat]
    rfl

theorem passes_undeclared {α : Type} (h : slot.toNat < localLimit) (declared : UInt8) :
    Passes (liftM (sum UInt8.size slot.toNat 1) >>= fun number =>
      (throw (.undeclaredLocal (UInt8.ofNat number) declared) : Checked α)) (.error (.undeclaredLocal (slot + 1) declared)) := by
  obtain ⟨hsum, hnumber⟩ := number_eq h
  refine .check hsum ?_
  rw [hnumber]
  exact .throw _

theorem localSlot_eq (f : Frame) (h : slot.toNat < localLimit) :
    localSlot f slot = some (f.locals.toArray.getD slot.toNat 0) := by
  simp [localSlot, Array.getD_eq_getD_getElem?, h]

theorem passes_readLocal (h : slot.toNat < localLimit) : Passes (readLocal f slot) (f.readLocal slot) := by
  unfold readLocal Frame.readLocal
  exact .ite (fun _ => .checked (localSlot_eq f h)) fun _ => passes_undeclared h f.declared

theorem passes_writeLocal (h : slot.toNat < localLimit) (value : UInt16) :
    Passes (writeLocal f slot value) (f.writeLocal slot value) := by
  unfold writeLocal Frame.writeLocal
  exact .ite (fun _ => .check (localSlot_eq f h) (.pure _)) fun _ => passes_undeclared h f.declared

theorem globalAddress_lt (m : Machine) (index : UInt8) : m.globalAddress index < 0x11000 := by
  have := m.header.globals.toNat_lt
  have := index.toNat_lt
  unfold Machine.globalAddress
  omega

theorem globalAddress_eq (m : Machine) (index : UInt8) : globalAddress m index = some (m.globalAddress index) := by
  have hlt := globalAddress_lt m index
  have hindex := index.toNat_lt
  unfold globalAddress
  rw [product_eq (lt_limit (by omega))]
  exact sum_eq (lt_limit (Nat.lt_trans hlt (by decide)))

theorem passes_valueOf (number : UInt8) : Passes (valueOf m (.ofNumber number)) (m.valueOf (.ofNumber number)) := by
  generalize hv : Variable.ofNumber number = v
  cases v with
  | stack => exact .check (current_eq m.calls) (.lift _)
  | localSlot slot => exact .check (current_eq m.calls) (passes_readLocal (slot_lt hv))
  | globalCell index =>
    have hlt := globalAddress_lt m index
    exact .check (globalAddress_eq m index) (passes_readWord (lt_limit (by omega)))

theorem passes_write (number : UInt8) (value : UInt16) :
    Passes (write m (.ofNumber number) value) (m.write? (.ofNumber number) value) := by
  generalize hv : Variable.ofNumber number = v
  cases v with
  | stack => exact .check (current_eq m.calls) (.map (.lift _) _)
  | localSlot slot => exact .check (current_eq m.calls) (.map (passes_writeLocal (slot_lt hv) value) _)
  | globalCell index =>
    have hlt := globalAddress_lt m index
    exact .check (globalAddress_eq m index) (.map (passes_writeWord (lt_limit (by omega)) value) _)

theorem passes_assign (number : UInt8) (value : UInt16) :
    Passes (assign m (.ofNumber number) value) (m.assign? (.ofNumber number) value) := by
  have hw := passes_write (m := m) number value
  generalize Variable.ofNumber number = v at hw ⊢
  cases v with
  | stack => exact .check (current_eq m.calls) (.map (.lift _) _)
  | localSlot slot => exact hw
  | globalCell index => exact hw

end Variables

end Checked

end ZMachine
