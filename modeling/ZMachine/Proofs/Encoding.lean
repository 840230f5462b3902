import ZMachine.Proofs.Fetch
import ZMachine.Proofs.Reading

/-!
# The bytes of an instruction

Writing an instruction down again gives the bytes it was read from, one after the other and nothing else.

* `Operand.encode`, `Branch.encode`, `Instruction.encode`: the bytes of an instruction;
* `Operand.consumes_of_readAll`, `Instruction.consumes_of_decode`, `Instruction.consumes_of_complete`: what each stage of
  decoding has read;
* `Instruction.written_of_fetch`: what has been read in all, which is the bytes of the instruction.
-/

namespace ZMachine

/-! ### Operands -/

namespace Operand

/-- The bytes of an operand: its number, in two bytes for a large constant and in one for all others. -/
def encode (operand : Operand) : List UInt8 :=
  match operand.kind with
  | .large => [Word.high operand.raw, Word.low operand.raw]
  | _ => [Word.low operand.raw]

variable {m : Memory}

theorem low_toUInt16 (byte : UInt8) : Word.low byte.toUInt16 = byte := by
  apply UInt8.toNat_inj.1
  rw [Word.toNat_low, UInt8.toNat_toUInt16]
  have := byte.toNat_lt
  omega

theorem encode_large (hi lo : UInt8) : (large (Word.ofBytes hi lo)).encode = [hi, lo] := by
  simp [encode, kind, raw]

theorem encode_small (byte : UInt8) : (small byte).encode = [byte] := by
  simp [encode, kind, raw, low_toUInt16]

theorem encode_var (byte : UInt8) : (var (.ofNumber byte)).encode = [byte] := by
  simp [encode, kind, raw, low_toUInt16]

/-- **The operands of given kinds** are those up to the first omitted one, and their bytes are what has been read. -/
theorem consumes_of_readAll {kinds : List OperandKind} {address next : Nat} {operands : List Operand}
    (h : readAll m address kinds = .ok (operands, next)) :
    operands.map kind = kinds.takeWhile (· ≠ .omitted) ∧ next = address + (operands.flatMap encode).length ∧
      Consumes (fun m => readAll m address kinds) m address (operands.flatMap encode) (operands, next) := by
  induction kinds generalizing address next operands with
  | nil =>
    cases h
    exact ⟨rfl, rfl, .pure m address _⟩
  | cons k kinds ih =>
    cases k with
    | omitted =>
      cases h
      exact ⟨rfl, rfl, .pure m address _⟩
    | large =>
      simp only [readAll, bind_eq_ok_iff] at h
      obtain ⟨hi, hhi, lo, hlo, ⟨rest, next'⟩, hr, h⟩ := h
      cases h
      obtain ⟨hkinds, hnext, hrest⟩ := ih hr
      rw [List.flatMap_cons, encode_large]
      refine ⟨?_, ?_, ?_⟩
      · simp [kind, hkinds]
      · simp only [hnext, List.length_append, List.length_cons, List.length_nil]
        omega
      · exact (Consumes.codeByte hhi).bind ((Consumes.codeByte hlo).bind (hrest.map _))
    | small | var =>
      simp only [readAll, bind_eq_ok_iff] at h
      obtain ⟨byte, hb, ⟨rest, next'⟩, hr, h⟩ := h
      cases h
      obtain ⟨hkinds, hnext, hrest⟩ := ih hr
      simp only [List.flatMap_cons, encode_small, encode_var]
      refine ⟨?_, ?_, ?_⟩
      · simp [kind, hkinds]
      · simp only [hnext, List.length_append, List.length_cons, List.length_nil]
        omega
      · exact (Consumes.codeByte hb).bind (hrest.map _)

end Operand

/-! ### Branches -/

namespace Branch

/-- The bytes of a branch: one with six bits of distance, or two with fourteen. -/
def encode (b : Branch) : (long : Bool) → List UInt8
  | false => [UInt8.ofNat (b.onTrue.toNat * 0x80 + 0x40 + b.offset.toNat)]
  | true =>
    let word := UInt16.ofNat (b.onTrue.toNat * 0x8000 + (b.offset % 0x4000).toNat)
    [Word.high word, Word.low word]

/-- The distances that can be written in one byte, and in two. -/
def Fits (b : Branch) : (long : Bool) → Prop
  | false => 0 ≤ b.offset ∧ b.offset < 0x40
  | true => -0x2000 ≤ b.offset ∧ b.offset < 0x2000

variable (first second : UInt8)

theorem fits_short (onTrue : Bool) : (⟨onTrue, (first.toNat % 64 : Nat)⟩ : Branch).Fits false := by
  simp only [Fits]
  omega

theorem fits_long (onTrue : Bool) : (⟨onTrue, longOffset first second⟩ : Branch).Fits true := by
  have := second.toNat_lt
  simp only [Fits, longOffset]
  split <;> omega

theorem toNat_onTrue : (decide (first.toNat / 128 = 1)).toNat = first.toNat / 128 := by
  have := first.toNat_lt
  by_cases h : first.toNat / 128 = 1
  · simp [h]
  · simp only [h, decide_false, Bool.toNat_false]
    omega

theorem encode_short (h : first.toNat / 64 % 2 = 1) :
    (⟨first.toNat / 128 = 1, (first.toNat % 64 : Nat)⟩ : Branch).encode false = [first] := by
  have := first.toNat_lt
  simp only [encode, toNat_onTrue, Int.toNat_natCast, List.cons.injEq, and_true]
  apply UInt8.toNat_inj.1
  rw [UInt8.toNat_ofNat']
  omega

theorem encode_long (h : ¬first.toNat / 64 % 2 = 1) :
    (⟨first.toNat / 128 = 1, longOffset first second⟩ : Branch).encode true = [first, second] := by
  have h₁ := first.toNat_lt
  have h₂ := second.toNat_lt
  -- modulo 16384 the signed distance is the fourteen bits it was read from
  have hbits : (longOffset first second % 0x4000).toNat = first.toNat % 64 * 256 + second.toNat := by
    unfold longOffset
    dsimp only
    split <;> omega
  have hword : UInt16.ofNat (first.toNat / 128 * 0x8000 + (first.toNat % 64 * 256 + second.toNat)) =
      Word.ofBytes first second := by
    unfold Word.ofBytes
    congr 1
    omega
  simp only [encode, toNat_onTrue, hbits, hword, Word.high_ofBytes, Word.low_ofBytes]

end Branch

/-! ### Whole instructions -/

namespace Instruction

/-- The byte of operand types, where the form has one. -/
def typeBytes (i : Instruction) (types : UInt8) : List UInt8 :=
  if i.form = .var then [types] else []

/-- The bytes up to the last operand. -/
def head (i : Instruction) (types : UInt8) : List UInt8 :=
  i.opcode :: (i.typeBytes types ++ i.operands.flatMap Operand.encode)

/-- The bytes after the last operand: the store variable and the branch, where there are such. -/
def tail (i : Instruction) (long : Bool) : List UInt8 :=
  i.store.toList ++ i.branch.elim [] fun b => b.encode long

/-- The bytes of an instruction, given what it does not keep: the byte of operand types, of which the slots after the first
omitted one make no difference, and whether the branch takes two bytes. -/
def encode (i : Instruction) (types : UInt8) (long : Bool) : List UInt8 :=
  i.head types ++ i.tail long

/-- The kinds of operand that the opcode byte asks for, or else the byte of operand types. -/
def kinds (i : Instruction) (types : UInt8) : List OperandKind :=
  match i.form, i.count with
  | .long, _ =>
    [if i.opcode.toNat.testBit 6 then .var else .small, if i.opcode.toNat.testBit 5 then .var else .small]
  | .short, .zero => []
  | .short, _ => [.ofBits (i.opcode >>> 4)]
  | .var, _ => (OperandKind.ofTypeByte types).takeWhile (· ≠ .omitted)

/-- The form, the table and the number are those of the opcode byte. -/
structure Classified (i : Instruction) : Prop where
  form : i.form = Form.ofOpcode i.opcode
  count : i.count = OperandCount.ofOpcode i.opcode
  number : i.number = Form.number i.opcode

variable {m : Memory} {address : Nat} {i j : Instruction} {op : Operation}

theorem longKinds_eq (opcode : UInt8) :
    (longKinds opcode).takeWhile (· ≠ .omitted) =
      [if opcode.toNat.testBit 6 then .var else .small, if opcode.toNat.testBit 5 then .var else .small] := by
  simp only [longKinds, Nat.testBit_eq_decide_div_mod_eq, decide_eq_true_eq]
  by_cases h6 : opcode.toNat / 64 % 2 = 1 <;> by_cases h5 : opcode.toNat / 32 % 2 = 1 <;> simp [h6, h5]

theorem shortKinds_eq (hi : i.Classified) (hf : i.form = .short) (types : UInt8) :
    (shortKinds i.opcode).takeWhile (· ≠ .omitted) = i.kinds types := by
  have hform : Form.ofOpcode i.opcode = .short := hi.form ▸ hf
  have hcount : i.count = if i.opcode.toNat / 16 % 4 = 3 then .zero else .one := by
    rw [hi.count, OperandCount.ofOpcode, hform]
  unfold shortKinds kinds
  rw [← hi.count, hf, hcount]
  by_cases h3 : i.opcode.toNat / 16 % 4 = 3
  · rw [if_pos h3]
    rfl
  · rw [if_neg h3]
    -- the two bits that would mean an omitted operand are those of the instructions without one
    have hne : OperandKind.ofBits (i.opcode >>> 4) ≠ .omitted := by
      have hshift : (i.opcode >>> 4).toNat = i.opcode.toNat / 16 := by
        rw [UInt8.toNat_shiftRight]
        exact Nat.shiftRight_eq_div_pow _ _
      unfold OperandKind.ofBits
      rw [hshift]
      split <;> simp_all
      omega
    simp [hne]

/-- The kinds of operand stand in the opcode byte, or in a byte of their own. -/
theorem consumes_of_operandKinds {ks : List OperandKind} {start : Nat} (hi : i.Classified)
    (h : operandKinds m address i.opcode = .ok (ks, start)) :
    ∃ types, (ks.take Operand.limit).takeWhile (· ≠ .omitted) = i.kinds types ∧
      start = address + 1 + (i.typeBytes types).length ∧
      Consumes (fun m => operandKinds m address i.opcode) m (address + 1) (i.typeBytes types) (ks, start) := by
  unfold operandKinds at h ⊢
  have hform := hi.form
  cases hf : Form.ofOpcode i.opcode with
  | long =>
    rw [hf] at h hform
    cases h
    refine ⟨0, ?_, ?_, ?_⟩
    · rw [kinds, hform]
      exact longKinds_eq i.opcode
    · simp [typeBytes, hform]
    · simp only [typeBytes, hform]
      exact .pure m _ _
  | short =>
    rw [hf] at h hform
    cases h
    refine ⟨0, ?_, ?_, ?_⟩
    · rw [← shortKinds_eq hi hform]
      congr 1
      unfold shortKinds
      cases OperandCount.ofOpcode i.opcode <;> rfl
    · simp [typeBytes, hform]
    · simp only [typeBytes, hform]
      exact .pure m _ _
  | var =>
    rw [hf] at h hform
    obtain ⟨types, ht, h⟩ := bind_eq_ok_iff.1 h
    cases h
    refine ⟨types, ?_, ?_, ?_⟩
    · rw [kinds, hform]
      rfl
    · simp [typeBytes, hform]
    · simp only [typeBytes, hform, if_true]
      exact (Consumes.codeByte ht).map _

/-- **The part up to the operands** is the opcode byte, the byte of operand types where the form has one, and the
operands. -/
theorem consumes_of_decode (h : decode m address = .ok i) :
    i.Classified ∧ i.address = UInt32.ofNat address ∧ i.store = none ∧ i.branch = none ∧
      ∃ types, i.operands.map Operand.kind = i.kinds types ∧
        i.nextPc = UInt32.ofNat (address + (i.head types).length) ∧
        Consumes (fun m => decode m address) m address (i.head types) i := by
  simp only [decode, bind_eq_ok_iff] at h
  obtain ⟨opcode, hopcode, ⟨ks, start⟩, hk, ⟨operands, next⟩, ho, h⟩ := h
  cases h
  have hi : Classified ⟨UInt32.ofNat address, opcode, Form.number opcode, Form.ofOpcode opcode,
      OperandCount.ofOpcode opcode, operands, none, none, UInt32.ofNat next⟩ := ⟨rfl, rfl, rfl⟩
  obtain ⟨types, hks, hstart, hck⟩ := consumes_of_operandKinds hi hk
  obtain ⟨hkinds, hnext, hco⟩ := Operand.consumes_of_readAll (show Operand.readAll m start _ = _ from ho)
  refine ⟨hi, rfl, rfl, rfl, types, hkinds.trans hks, ?_, ?_⟩
  · show UInt32.ofNat next = _
    congr 1
    simp only [head, List.length_cons, List.length_append]
    omega
  · rw [hstart] at hco hck
    exact (Consumes.codeByte hopcode).bind (hck.bind (hco.map _))

/-! ### The two tails -/

/-- The address after a byte that stands in a short enough image does not wrap. -/
theorem toNat_add_one {pc : UInt32} {part : Part} {byte : UInt8} (hsize : m.size < UInt32.size)
    (h : m.codeByte part pc.toNat = .ok byte) : (pc + 1).toNat = pc.toNat + 1 := by
  have hlt : pc.toNat < m.size := (Array.getElem?_eq_some_iff.1 (Memory.codeByte_eq_ok_iff.1 h)).1
  have hsize' : m.size < 4294967296 := hsize
  rw [UInt32.toNat_add, UInt32.toNat_one]
  omega

/-- The store variable, if the operation has one. -/
theorem consumes_of_store (hsize : m.size < UInt32.size) (hs : i.store = none)
    (h : (if op.entry.stores then i.readStore m else .ok i) = .ok j) :
    j = { i with store := j.store, nextPc := j.nextPc } ∧
      j.nextPc.toNat = i.nextPc.toNat + j.store.toList.length ∧
      Consumes (fun m => if op.entry.stores then i.readStore m else .ok i) m i.nextPc.toNat j.store.toList j := by
  cases hst : op.entry.stores with
  | false =>
    rw [hst] at h
    cases h
    refine ⟨rfl, ?_, ?_⟩
    · rw [hs]
      rfl
    · rw [hs]
      exact .pure m _ _
  | true =>
    rw [hst, if_pos rfl] at h
    obtain ⟨number, hn, h⟩ := bind_eq_ok_iff.1 h
    cases h
    exact ⟨rfl, toNat_add_one hsize hn, (Consumes.codeByte hn).map _⟩

/-- Reading a branch, one byte and then perhaps another. -/
theorem readBranch_eq (i : Instruction) (m : Memory) :
    (i.readBranch m).mapError Cut.fault =
      m.codeByte .branchOffset i.nextPc.toNat >>= fun first =>
        if first.toNat / 64 % 2 = 1 then
          .ok { i with branch := some ⟨first.toNat / 128 = 1, (first.toNat % 64 : Nat)⟩, nextPc := i.nextPc + 1 }
        else
          m.codeByte .branchOffset (i.nextPc + 1).toNat >>= fun second =>
            .ok { i with
              branch := some ⟨first.toNat / 128 = 1, Branch.longOffset first second⟩, nextPc := i.nextPc + 1 + 1 } := by
  unfold readBranch
  cases m.codeByte .branchOffset i.nextPc.toNat with
  | error fault => rfl
  | ok first =>
    rw [ok_bind]
    dsimp only
    split
    · rfl
    · cases m.codeByte .branchOffset (i.nextPc + 1).toNat <;> rfl

theorem consumes_of_readBranch (hsize : m.size < UInt32.size) (h : (i.readBranch m).mapError Cut.fault = .ok j) :
    ∃ b long, b.Fits long ∧ j = { i with branch := some b, nextPc := j.nextPc } ∧
      j.nextPc.toNat = i.nextPc.toNat + (b.encode long).length ∧
      Consumes (fun m => (i.readBranch m).mapError Cut.fault) m i.nextPc.toNat (b.encode long) j := by
  simp only [readBranch_eq] at h ⊢
  obtain ⟨first, hfirst, h⟩ := bind_eq_ok_iff.1 h
  have hnext := toNat_add_one hsize hfirst
  by_cases hbit : first.toNat / 64 % 2 = 1
  · rw [if_pos hbit] at h
    cases h
    refine ⟨_, false, Branch.fits_short first _, rfl, ?_, ?_⟩
    · rw [Branch.encode_short first hbit]
      exact hnext
    · rw [Branch.encode_short first hbit]
      refine (Consumes.codeByte hfirst).bind ?_
      simp only [if_pos hbit]
      exact .pure m _ _
  · rw [if_neg hbit] at h
    obtain ⟨second, hsecond, h⟩ := bind_eq_ok_iff.1 h
    cases h
    refine ⟨_, true, Branch.fits_long first second _, rfl, ?_, ?_⟩
    · rw [Branch.encode_long first second hbit]
      show (i.nextPc + 1 + 1).toNat = i.nextPc.toNat + 2
      rw [toNat_add_one hsize hsecond, hnext]
    · rw [Branch.encode_long first second hbit]
      refine (Consumes.codeByte hfirst).bind ?_
      simp only [if_neg hbit]
      rw [hnext] at hsecond ⊢
      exact (Consumes.codeByte hsecond).map _

/-- The branch, if the operation has one. -/
theorem consumes_of_branch (hsize : m.size < UInt32.size) (hb : i.branch = none)
    (h : (if op.entry.branches then (i.readBranch m).mapError Cut.fault else .ok i) = .ok j) :
    ∃ long, (∀ b, j.branch = some b → b.Fits long) ∧ j = { i with branch := j.branch, nextPc := j.nextPc } ∧
      j.nextPc.toNat = i.nextPc.toNat + (j.branch.elim [] fun b => b.encode long).length ∧
      Consumes (fun m => if op.entry.branches then (i.readBranch m).mapError Cut.fault else .ok i) m i.nextPc.toNat
        (j.branch.elim [] fun b => b.encode long) j := by
  cases hbr : op.entry.branches with
  | false =>
    rw [hbr] at h
    cases h
    refine ⟨false, ?_, rfl, ?_, ?_⟩
    · rw [hb]
      nofun
    · rw [hb]
      rfl
    · rw [hb]
      exact .pure m _ _
  | true =>
    rw [hbr, if_pos rfl] at h
    obtain ⟨b, long, hfits, hj, hnext, hc⟩ := consumes_of_readBranch hsize h
    have hbranch : j.branch = some b := by rw [hj]
    refine ⟨long, ?_, ?_, ?_, ?_⟩
    · rw [hbranch]
      rintro _ ⟨⟩
      exact hfits
    · rw [hbranch]
      exact hj
    · rw [hbranch]
      exact hnext
    · rw [hbranch]
      exact hc

theorem lookup?_of_complete (h : i.complete m = .ok (j, op)) : Operation.lookup? i.count i.number = some op := by
  cases hop : Operation.lookup? i.count i.number with
  | none => simp [complete, hop] at h
  | some op' =>
    rw [complete_eq hop] at h
    obtain ⟨k, -, h⟩ := bind_eq_ok_iff.1 h
    obtain ⟨l, -, h⟩ := bind_eq_ok_iff.1 h
    cases h
    rfl

/-- **The part after the operands** is the store variable and then the branch, each where the operation has it. -/
theorem consumes_of_complete (hsize : m.size < UInt32.size) (hs : i.store = none) (hb : i.branch = none)
    (h : i.complete m = .ok (j, op)) :
    ∃ long, (∀ b, j.branch = some b → b.Fits long) ∧
      j = { i with store := j.store, branch := j.branch, nextPc := j.nextPc } ∧
      j.nextPc.toNat = i.nextPc.toNat + (j.tail long).length ∧
      Consumes (fun m => i.complete m) m i.nextPc.toNat (j.tail long) (j, op) := by
  simp only [complete_eq (lookup?_of_complete h)] at h ⊢
  obtain ⟨k, hk, h⟩ := bind_eq_ok_iff.1 h
  obtain ⟨l, hl, h⟩ := bind_eq_ok_iff.1 h
  cases h
  obtain ⟨hkeq, hknext, hkc⟩ := consumes_of_store hsize hs hk
  have hkb : k.branch = none := by
    rw [hkeq]
    exact hb
  obtain ⟨long, hfits, hleq, hlnext, hlc⟩ := consumes_of_branch hsize hkb hl
  have hstore : j.store = k.store := by rw [hleq]
  refine ⟨long, hfits, ?_, ?_, ?_⟩
  · rw [hstore, hleq, hkeq]
  · rw [tail, hstore, List.length_append]
    omega
  · rw [tail, hstore]
    refine hkc.bind ?_
    rw [← hknext]
    exact hlc.map _

/-! ### Fetching -/

/-- What has been read of an image when an instruction has been fetched. -/
structure Written (m : Memory) (address : Nat) (i : Instruction) (op : Operation) (types : UInt8) (long : Bool) : Prop where
  classified : i.Classified
  operation : Operation.lookup? i.count i.number = some op
  address_eq : i.address.toNat = address
  nextPc_eq : i.nextPc.toNat = address + (i.encode types long).length
  operands : i.operands.map Operand.kind = i.kinds types
  branch : ∀ b, i.branch = some b → b.Fits long
  consumes : Consumes (fun m => fetch m address) m address (i.encode types long) (i, op)

/-- **An instruction that has been fetched was read from its own bytes.** -/
theorem written_of_fetch (hsize : m.size < UInt32.size) (h : fetch m address = .ok (i, op)) :
    ∃ types long, Written m address i op types long := by
  obtain ⟨j, hj, h⟩ := bind_eq_ok_iff.1 h
  obtain ⟨hclass, haddress, hs, hb, types, hkinds, hnext, hcj⟩ := consumes_of_decode hj
  obtain ⟨long, hfits, hi, hinext, hci⟩ := consumes_of_complete hsize hs hb h
  have hend : address + (j.head types).length ≤ m.size := hcj.holds.le_size (List.cons_ne_nil _ _)
  have hsize' : m.size < 4294967296 := hsize
  have hjnext : j.nextPc.toNat = address + (j.head types).length := by
    rw [hnext, UInt32.toNat_ofNat']
    omega
  have hhead : i.head types = j.head types := by rw [hi]; rfl
  refine ⟨types, long, ?_, ?_, ?_, ?_, ?_, hfits, ?_⟩
  · rw [hi]
    exact ⟨hclass.form, hclass.count, hclass.number⟩
  · rw [hi]
    show Operation.lookup? j.count j.number = some op
    exact lookup?_of_complete h
  · rw [hi]
    show j.address.toNat = address
    rw [haddress, UInt32.toNat_ofNat']
    omega
  · rw [hinext, hjnext, encode, hhead, List.length_append]
    omega
  · rw [hi]
    exact hkinds
  · rw [encode, hhead]
    rw [hjnext] at hci
    exact hcj.bind hci

end Instruction

end ZMachine
