import Mathlib.Algebra.Group.Int.Defs
import ZMachine.Proofs.Encoding

/-!
# The tails of an instruction

After its operands an instruction has the number of a store variable, a branch, both or neither, as its operation asks.
These bytes are found from the address of the next one, a number of 32 bits, and addresses wrap there.

* `Memory.HoldsFrom`: given bytes stand from an address of 32 bits on;
* `Branch.SpelledBy`: the one or two bytes of a branch, and the signed distance that they give;
* `toNat_jumpTarget`: where a distance leads;
* `Instruction.readBranch_eq_ok_iff`: what reading a branch comes to;
* `Operation.HasTail`, `Instruction.complete_eq_ok_iff`: an instruction is complete if its tail follows;
* `Instruction.fetch_of_tail`, `Instruction.tail_of_fetch`: a fetched instruction is a decoded one with its tail.
-/

namespace ZMachine

/-! ### Bytes at addresses of 32 bits -/

namespace Memory

variable {m : Memory}

/-- The given bytes stand in the image one after the other, from an address of 32 bits on. -/
def HoldsFrom (m : Memory) (pc : UInt32) : List UInt8 → Prop
  | [] => True
  | byte :: bytes => m.bytes[pc.toNat]? = some byte ∧ m.HoldsFrom (pc + 1) bytes

theorem holdsFrom_append {pc : UInt32} {bytes more : List UInt8} :
    m.HoldsFrom pc (bytes ++ more) ↔ m.HoldsFrom pc bytes ∧ m.HoldsFrom (pc + UInt32.ofNat bytes.length) more := by
  induction bytes generalizing pc with
  | nil => simp [HoldsFrom]
  | cons byte bytes ih =>
    have hnext : pc + UInt32.ofNat (byte :: bytes).length = pc + 1 + UInt32.ofNat bytes.length := by
      rw [List.length_cons, UInt32.ofNat_add, UInt32.add_assoc, UInt32.add_comm (UInt32.ofNat bytes.length)]
      rfl
    rw [List.cons_append, HoldsFrom, HoldsFrom, ih, hnext, and_assoc]

end Memory

/-! ### Branches -/

/-- The bytes of a branch.  Bit 7 of the first says on which outcome of the test the branch is taken.  If bit 6 is set the
other six bits are the distance; otherwise these and a second byte are, as a number of fourteen bits with a sign. -/
inductive Branch.SpelledBy : Branch → List UInt8 → Prop
  | short {first : UInt8} (bit : first.toNat.testBit 6 = true) :
      SpelledBy ⟨first.toNat.testBit 7, (first.toNat % 64 : Nat)⟩ [first]
  | long {first second : UInt8} {offset : Int} (bit : first.toNat.testBit 6 = false) (low : -8192 ≤ offset)
      (high : offset < 8192) (bits : offset % 16384 = (first.toNat % 64 * 256 + second.toNat : Nat)) :
      SpelledBy ⟨first.toNat.testBit 7, offset⟩ [first, second]

namespace Branch

theorem testBit_six (first : UInt8) : first.toNat.testBit 6 = true ↔ first.toNat / 64 % 2 = 1 := by
  rw [Nat.testBit_eq_decide_div_mod_eq, decide_eq_true_eq]

theorem testBit_seven (first : UInt8) : first.toNat.testBit 7 = decide (first.toNat / 128 = 1) := by
  have hlt := first.toNat_lt
  rw [Nat.testBit_eq_decide_div_mod_eq, decide_eq_decide]
  omega

/-- The distance in two bytes is the only one within its bounds that has their fourteen bits. -/
theorem eq_longOffset_iff {first second : UInt8} {offset : Int} :
    offset = longOffset first second ↔
      -8192 ≤ offset ∧ offset < 8192 ∧ offset % 16384 = (first.toNat % 64 * 256 + second.toNat : Nat) := by
  have hlt := second.toNat_lt
  unfold longOffset
  dsimp only
  split <;> omega

end Branch

theorem toNat_jumpTarget (nextPc : UInt32) (offset : Int) :
    ((jumpTarget nextPc offset).toNat : Int) = (nextPc.toNat + offset - 2) % 2 ^ 32 := by
  rw [jumpTarget, UInt32.ofInt, UInt32.toNat_ofNat']
  omega

/-- The same distance from an address one higher leads to an address one higher. -/
theorem jumpTarget_add_one (nextPc : UInt32) (offset : Int) :
    jumpTarget (nextPc + 1) offset = jumpTarget nextPc offset + 1 := by
  apply UInt32.toNat_inj.1
  have hfirst := toNat_jumpTarget nextPc offset
  have hsecond := toNat_jumpTarget (nextPc + 1) offset
  rw [UInt32.toNat_add, UInt32.toNat_one] at hsecond ⊢
  omega

namespace Instruction

variable {m : Memory} {i j : Instruction}

/-- **Reading a branch** succeeds if the bytes of one follow. -/
theorem readBranch_eq_ok_iff :
    (i.readBranch m).mapError Cut.fault = .ok j ↔
      ∃ b bytes, b.SpelledBy bytes ∧ m.HoldsFrom i.nextPc bytes ∧
        j = { i with branch := some b, nextPc := i.nextPc + UInt32.ofNat bytes.length } := by
  rw [readBranch_eq]
  simp only [bind_eq_ok_iff, Memory.codeByte_eq_ok_iff]
  constructor
  · rintro ⟨first, hfirst, h⟩
    by_cases hbit : first.toNat / 64 % 2 = 1
    · rw [if_pos hbit] at h
      cases h
      rw [← Branch.testBit_seven]
      exact ⟨_, [first], .short ((Branch.testBit_six first).2 hbit), ⟨hfirst, trivial⟩, rfl⟩
    · rw [if_neg hbit] at h
      obtain ⟨second, hsecond, h⟩ := bind_eq_ok_iff.1 h
      rw [Memory.codeByte_eq_ok_iff] at hsecond
      cases h
      rw [← Branch.testBit_seven]
      obtain ⟨hlow, hhigh, hbits⟩ := Branch.eq_longOffset_iff.1 (rfl : Branch.longOffset first second = _)
      have hclear : first.toNat.testBit 6 = false := by
        rw [← Bool.not_eq_true, Branch.testBit_six]
        exact hbit
      refine ⟨_, [first, second], .long hclear hlow hhigh hbits, ⟨hfirst, hsecond, trivial⟩, ?_⟩
      rw [UInt32.add_assoc]
      rfl
  · rintro ⟨b, bytes, hb, hm, rfl⟩
    cases hb with
    | @short first bit =>
      refine ⟨first, hm.1, ?_⟩
      rw [if_pos ((Branch.testBit_six first).1 bit), ← Branch.testBit_seven]
      rfl
    | @long first second offset bit low high bits =>
      refine ⟨first, hm.1, ?_⟩
      have hbit : ¬first.toNat / 64 % 2 = 1 := by
        rw [← Branch.testBit_six, bit]
        nofun
      rw [if_neg hbit, ← Branch.testBit_seven, Memory.codeByte_eq_ok_iff.2 hm.2.1, ok_bind,
        ← Branch.eq_longOffset_iff.2 ⟨low, high, bits⟩, UInt32.add_assoc]
      rfl

end Instruction

/-! ### Both tails -/

/-- Bytes are the tail of an instruction with an operation: a store variable and then a branch, each if the operation has
it. -/
structure Operation.HasTail (op : Operation) (bytes : List UInt8) (store : Option UInt8) (branch : Option Branch) :
    Prop where
  stores : store.isSome = op.entry.stores
  branches : branch.isSome = op.entry.branches
  spelled : ∃ field, bytes = store.toList ++ field ∧ branch.elim (field = []) (·.SpelledBy field)

/-- The tail of an instruction takes at most three bytes. -/
theorem Operation.HasTail.length_le {op : Operation} {bytes : List UInt8} {store : Option UInt8}
    {branch : Option Branch} (h : op.HasTail bytes store branch) : bytes.length ≤ 3 := by
  obtain ⟨field, rfl, hfield⟩ := h.spelled
  have hstore : store.toList.length ≤ 1 := by cases store <;> simp
  have hbranch : field.length ≤ 2 := by
    cases branch with
    | none =>
      obtain rfl : field = [] := hfield
      exact Nat.zero_le 2
    | some b => cases (hfield : b.SpelledBy field) <;> simp
  rw [List.length_append]
  omega

namespace Instruction

variable {m : Memory} {i j : Instruction} {op : Operation}

/-- The store variable, if there is to be one. -/
theorem storeTail_eq_ok_iff {stores : Bool} (hs : i.store = none) :
    (if stores then i.readStore m else .ok i) = .ok j ↔
      ∃ store : Option UInt8, store.isSome = stores ∧ m.HoldsFrom i.nextPc store.toList ∧
        j = { i with store, nextPc := i.nextPc + UInt32.ofNat store.toList.length } := by
  constructor
  · intro h
    cases stores with
    | false =>
      cases h
      refine ⟨none, rfl, trivial, ?_⟩
      show i = { i with store := none, nextPc := i.nextPc + 0 }
      rw [UInt32.add_zero, ← hs]
    | true =>
      obtain ⟨number, hn, h⟩ := bind_eq_ok_iff.1 h
      cases h
      exact ⟨some number, rfl, ⟨Memory.codeByte_eq_ok_iff.1 hn, trivial⟩, rfl⟩
  · rintro ⟨_ | number, rfl, hm, rfl⟩
    · show Except.ok i = .ok { i with store := none, nextPc := i.nextPc + 0 }
      rw [UInt32.add_zero, ← hs]
    · exact bind_eq_ok_iff.2 ⟨number, Memory.codeByte_eq_ok_iff.2 hm.1, rfl⟩

/-- The branch, if there is to be one. -/
theorem branchTail_eq_ok_iff {branches : Bool} (hb : i.branch = none) :
    (if branches then (i.readBranch m).mapError Cut.fault else .ok i) = .ok j ↔
      ∃ (branch : Option Branch) (field : List UInt8), branch.isSome = branches ∧
        branch.elim (field = []) (·.SpelledBy field) ∧ m.HoldsFrom i.nextPc field ∧
        j = { i with branch, nextPc := i.nextPc + UInt32.ofNat field.length } := by
  constructor
  · intro h
    cases branches with
    | false =>
      cases h
      refine ⟨none, [], rfl, rfl, trivial, ?_⟩
      show i = { i with branch := none, nextPc := i.nextPc + 0 }
      rw [UInt32.add_zero, ← hb]
    | true =>
      obtain ⟨b, field, hspelled, hm, rfl⟩ := readBranch_eq_ok_iff.1 h
      exact ⟨some b, field, rfl, hspelled, hm, rfl⟩
  · rintro ⟨_ | b, field, rfl, hfield, hm, rfl⟩
    · obtain rfl : field = [] := hfield
      show Except.ok i = .ok { i with branch := none, nextPc := i.nextPc + 0 }
      rw [UInt32.add_zero, ← hb]
    · exact readBranch_eq_ok_iff.2 ⟨b, field, hfield, hm, rfl⟩

/-- **An instruction is complete if its tail follows**, and goes on after the tail. -/
theorem complete_eq_ok_iff (hs : i.store = none) (hb : i.branch = none) :
    i.complete m = .ok (j, op) ↔
      Operation.lookup? i.count i.number = some op ∧ ∃ bytes store branch, op.HasTail bytes store branch ∧
        m.HoldsFrom i.nextPc bytes ∧
        j = { i with store, branch, nextPc := i.nextPc + UInt32.ofNat bytes.length } := by
  constructor
  · intro h
    have hop := lookup?_of_complete h
    rw [complete_eq hop] at h
    obtain ⟨k, hk, h⟩ := bind_eq_ok_iff.1 h
    obtain ⟨l, hl, h⟩ := bind_eq_ok_iff.1 h
    cases h
    obtain ⟨store, hstores, hm, hkeq⟩ := (storeTail_eq_ok_iff hs).1 hk
    have hkb : k.branch = none := by
      rw [hkeq]
      exact hb
    obtain ⟨branch, field, hbranches, hfield, hm', rfl⟩ := (branchTail_eq_ok_iff hkb).1 hl
    subst hkeq
    refine ⟨hop, store.toList ++ field, store, branch, ⟨hstores, hbranches, field, rfl, hfield⟩,
      Memory.holdsFrom_append.2 ⟨hm, hm'⟩, ?_⟩
    rw [List.length_append, UInt32.ofNat_add, UInt32.add_assoc]
  · rintro ⟨hop, bytes, store, branch, ⟨hstores, hbranches, field, rfl, hfield⟩, hm, rfl⟩
    rw [Memory.holdsFrom_append] at hm
    -- the store variable leaves the instruction at the first byte of the branch
    have hfirst := (storeTail_eq_ok_iff hs).2 ⟨store, hstores, hm.1, rfl⟩
    have hsecond := (branchTail_eq_ok_iff
      (i := { i with store, nextPc := i.nextPc + UInt32.ofNat store.toList.length }) hb).2
      ⟨branch, field, hbranches, hfield, hm.2, rfl⟩
    rw [complete_eq hop, hfirst, ok_bind, hsecond, ok_bind, List.length_append, UInt32.ofNat_add, UInt32.add_assoc]

variable {address : Nat}

/-- A decoded instruction is fetched if its tail follows. -/
theorem fetch_of_tail {head : Instruction} {bytes : List UInt8} {store : Option UInt8} {branch : Option Branch}
    (hhead : decode m address = .ok head) (hop : Operation.lookup? head.count head.number = some op)
    (htail : op.HasTail bytes store branch) (hm : m.HoldsFrom head.nextPc bytes) :
    fetch m address =
      .ok ({ head with store, branch, nextPc := head.nextPc + UInt32.ofNat bytes.length }, op) := by
  obtain ⟨-, hs, hb⟩ := decode_spec hhead
  rw [fetch, hhead, ok_bind]
  exact (complete_eq_ok_iff hs hb).2 ⟨hop, bytes, store, branch, htail, hm, rfl⟩

/-- **A fetched instruction** is a decoded one with the tail that follows it. -/
theorem tail_of_fetch (h : fetch m address = .ok (i, op)) :
    ∃ head bytes, decode m address = .ok head ∧ op.HasTail bytes i.store i.branch ∧ m.HoldsFrom head.nextPc bytes ∧
      i = { head with
        store := i.store, branch := i.branch, nextPc := head.nextPc + UInt32.ofNat bytes.length } := by
  obtain ⟨head, hhead, h⟩ := bind_eq_ok_iff.1 h
  obtain ⟨-, hs, hb⟩ := decode_spec hhead
  obtain ⟨-, bytes, store, branch, htail, hm, rfl⟩ := (complete_eq_ok_iff hs hb).1 h
  exact ⟨head, bytes, hhead, htail, hm, rfl⟩

end Instruction

end ZMachine
