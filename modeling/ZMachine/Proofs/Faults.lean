import ZMachine.Proofs.Effect
import ZMachine.Proofs.Fetch

/-!
# Faults of execution

Once an instruction has been fetched and has enough operands, whatever stops it is a fault of its execution and not of the
instruction itself.

* `PastDecoding`: a computation that can only fail with such a fault;
* `Machine.pastDecoding_valueOf`, `Machine.pastDecoding_write?`, `Machine.pastDecoding_put?`, …: access to variables,
  properties and routines are such computations.
-/

namespace ZMachine

/-- A computation that does not fail because of the instruction itself. -/
def PastDecoding {α : Type} (x : Except Fault α) : Prop :=
  ∀ fault, x = .error fault → fault.isMalformed = false

namespace PastDecoding

variable {α β : Type} {x y : Except Fault α}

theorem ok (a : α) : PastDecoding (.ok a) := nofun

theorem error {fault : Fault} (h : fault.isMalformed = false) : PastDecoding (.error fault : Except Fault α) := by
  rintro _ ⟨⟩
  exact h

theorem bind {f : α → Except Fault β} (hx : PastDecoding x) (hf : ∀ a, PastDecoding (f a)) :
    PastDecoding (x >>= f) := by
  intro fault h
  rcases bind_eq_error_iff.1 h with h | ⟨a, -, h⟩
  · exact hx fault h
  · exact hf a fault h

theorem map {f : α → β} (hx : PastDecoding x) : PastDecoding (x.map f) :=
  fun fault h => hx fault (map_eq_error_iff.1 h)

theorem ite {p : Prop} [Decidable p] (hx : PastDecoding x) (hy : PastDecoding y) :
    PastDecoding (if p then x else y) := by
  split
  · exact hx
  · exact hy

end PastDecoding

/-! ### Memory and frames -/

namespace Memory

theorem pastDecoding_readByte (m : Memory) (address : Nat) : PastDecoding (m.readByte address) := by
  unfold readByte
  split
  · exact .ok _
  · exact .error rfl

theorem pastDecoding_readWord (m : Memory) (address : Nat) : PastDecoding (m.readWord address) :=
  .bind (m.pastDecoding_readByte _) fun _ => .bind (m.pastDecoding_readByte _) fun _ => .ok _

theorem pastDecoding_readWords (m : Memory) (address n : Nat) : PastDecoding (m.readWords address n) := by
  induction n generalizing address with
  | zero => exact .ok _
  | succ n ih => exact .bind (m.pastDecoding_readWord _) fun _ => .bind (ih _) fun _ => .ok _

theorem pastDecoding_checkWritable (m : Memory) (address : Nat) : PastDecoding (m.checkWritable address) :=
  .ite (.error rfl) (.ite (.error rfl) (.ok _))

theorem pastDecoding_checkWritableWord (m : Memory) (address : Nat) : PastDecoding (m.checkWritableWord address) :=
  .bind (m.pastDecoding_checkWritable _) fun _ => m.pastDecoding_checkWritable _

theorem pastDecoding_writeByte (m : Memory) (address : Nat) (byte : UInt8) : PastDecoding (m.writeByte address byte) :=
  .bind (m.pastDecoding_checkWritable _) fun _ => .ok _

theorem pastDecoding_writeWord (m : Memory) (address : Nat) (word : UInt16) : PastDecoding (m.writeWord address word) :=
  .bind (m.pastDecoding_checkWritableWord _) fun _ => .ok _

end Memory

namespace Frame

theorem pastDecoding_peek (f : Frame) : PastDecoding f.peek := by
  unfold peek
  split
  · exact .error rfl
  · exact .ok _

theorem pastDecoding_replaceTop (f : Frame) (value : UInt16) : PastDecoding (f.replaceTop value) := by
  unfold replaceTop
  split
  · exact .error rfl
  · exact .ok _

theorem pastDecoding_push (f : Frame) (value : UInt16) : PastDecoding (f.push value) :=
  .ite (.error rfl) (.ok _)

theorem pastDecoding_readLocal (f : Frame) (slot : UInt8) : PastDecoding (f.readLocal slot) :=
  .ite (.ok _) (.error rfl)

theorem pastDecoding_writeLocal (f : Frame) (slot : UInt8) (value : UInt16) : PastDecoding (f.writeLocal slot value) :=
  .ite (.ok _) (.error rfl)

end Frame

/-! ### Properties -/

namespace PropertyTable

variable (t : PropertyTable) (m : Memory) (object : UInt16) (property : UInt8)

theorem pastDecoding_entryAt (address : Nat) : PastDecoding (t.entryAt m address) := by
  refine .bind (m.pastDecoding_readByte _) fun first => .ite (.ok _) (.ite ?_ (.ok _))
  exact .bind (m.pastDecoding_readByte _) fun second => .ok _

theorem pastDecoding_findFrom (address : Nat) : PastDecoding (t.findFrom m object property address) := by
  fun_induction findFrom t m object property address with
  | case1 address fault hb => exact .error (m.pastDecoding_readByte _ _ hb)
  | case2 address hb => exact .error rfl
  | case3 address byte hb hne fault he => exact .error (t.pastDecoding_entryAt m _ _ he)
  | case4 => exact .ok _
  | case5 address byte hb hne e he hn ih => exact ih

theorem pastDecoding_find : PastDecoding (t.find m object property) := by
  refine .bind (.ite (.error rfl) (.ok _)) fun entry => .bind (m.pastDecoding_readWord _) fun properties => ?_
  exact .bind (m.pastDecoding_readByte _) fun nameWords => t.pastDecoding_findFrom m object property _

theorem pastDecoding_put (value : UInt16) : PastDecoding (t.put m object property value) := by
  refine .bind (t.pastDecoding_find m object property) fun slot => .bind ?_ fun _ => .ok _
  exact .ite (m.pastDecoding_checkWritable _) (.ite (m.pastDecoding_checkWritableWord _) (.error rfl))

end PropertyTable

/-! ### Variables and routines -/

namespace Machine

variable (m : Machine)

theorem pastDecoding_valueOf (source : Variable) : PastDecoding (m.valueOf source) := by
  cases source with
  | stack => exact m.calls.current.pastDecoding_peek
  | localSlot slot => exact m.calls.current.pastDecoding_readLocal slot
  | globalCell index => exact m.memory.pastDecoding_readWord _

theorem pastDecoding_write? (target : Variable) (value : UInt16) : PastDecoding (m.write? target value) := by
  cases target with
  | stack => exact .map (m.calls.current.pastDecoding_push value)
  | localSlot slot => exact .map (m.calls.current.pastDecoding_writeLocal slot value)
  | globalCell index => exact .map (m.memory.pastDecoding_writeWord _ value)

theorem pastDecoding_assign? (target : Variable) (value : UInt16) : PastDecoding (m.assign? target value) := by
  cases target with
  | stack => exact .map (m.calls.current.pastDecoding_replaceTop value)
  | localSlot slot => exact .map (m.calls.current.pastDecoding_writeLocal slot value)
  | globalCell index => exact .map (m.memory.pastDecoding_writeWord _ value)

theorem pastDecoding_put? (object : UInt16) (property : UInt8) (value : UInt16) :
    PastDecoding (m.put? object property value) := by
  unfold put?
  split
  · exact .map (PropertyTable.pastDecoding_put _ _ object property value)
  · exact .ok _

theorem pastDecoding_frameAt (routine : Nat) (arguments : List UInt16) (returnStore : Option UInt8) :
    PastDecoding (m.frameAt routine arguments returnStore) := by
  refine .bind (m.memory.pastDecoding_readByte _) fun declared => .bind (.ite (.error rfl) (.ok _)) fun frame => ?_
  refine .bind (.ite ?_ (.ok _)) fun _ => .ok _
  exact .bind (m.memory.pastDecoding_readWords _ _) fun initial => .ok _

theorem pastDecoding_enter? (routine : Nat) (arguments : List UInt16) (returnStore : Option UInt8) :
    PastDecoding (m.enter? routine arguments returnStore) := by
  refine .bind (m.pastDecoding_frameAt routine arguments returnStore) fun entered => ?_
  exact .bind (.ite (.error rfl) (.ok _)) fun calls => .ok _

end Machine

end ZMachine
