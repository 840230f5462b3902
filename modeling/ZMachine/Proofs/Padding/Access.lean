import ZMachine.Proofs.Encoding
import ZMachine.Proofs.Memory

/-!
# Padded images

Bytes after the end of an image make no difference to what stays inside of it.  An access to the image and the same access
to the padded image come to the same, unless the first runs past the end.  This goes together along sequences, so it holds
of property tables and instructions as it does of single bytes.

* `Memory.pad`: an image with bytes after its end;
* `Approx`: to come to the same, unless past the end;
* `Memory.approx_readByte`, `Memory.approx_writeByte`, …: reading and writing;
* `PropertyTable.approx_put`: property writes;
* `Instruction.approx_fetch`: instructions;
* `Memory.approx_ofStory`, `Header.approx_parse`: story files.
-/

namespace ZMachine

/-- Whether a fault is that an image has ended too soon. -/
def Fault.isPastEnd : Fault → Bool
  | .truncated .. | .outOfBounds .. => true
  | _ => false

/-- The second computation comes to the same as the first, unless the first runs past the end of its image. -/
def Approx {α : Type} (x y : Except Fault α) : Prop :=
  y = x ∨ ∃ fault, x = .error fault ∧ fault.isPastEnd

namespace Approx

variable {α β γ : Type} {x y : Except Fault α}

theorem refl (x : Except Fault α) : Approx x x := .inl rfl

theorem pastEnd {fault : Fault} (h : fault.isPastEnd) : Approx (.error fault) y := .inr ⟨fault, rfl, h⟩

/-- Sequences, where the second one may go on from a value that corresponds to that of the first. -/
theorem bindMap {z : Except Fault γ} {c : α → γ} {f : α → Except Fault β} {g : γ → Except Fault β}
    (h : Approx (x.map c) z) (hf : ∀ a, x = .ok a → Approx (f a) (g (c a))) : Approx (x >>= f) (z >>= g) := by
  rcases h with rfl | ⟨fault, hx, hfault⟩
  · cases x with
    | error fault => exact .refl _
    | ok a => exact hf a rfl
  · rw [map_eq_error_iff.1 hx]
    exact .pastEnd hfault

theorem bind {f g : α → Except Fault β} (h : Approx x y) (hf : ∀ a, x = .ok a → Approx (f a) (g a)) :
    Approx (x >>= f) (y >>= g) := by
  rcases h with rfl | ⟨fault, rfl, hfault⟩
  · cases y with
    | error fault => exact .refl _
    | ok a => exact hf a rfl
  · exact .pastEnd hfault

theorem map (h : Approx x y) (f : α → β) : Approx (x.map f) (y.map f) := by
  rcases h with rfl | ⟨fault, rfl, hfault⟩
  · exact .refl _
  · exact .pastEnd hfault

theorem ite {p : Prop} [Decidable p] {x' y' : Except Fault α} (h : Approx x y) (h' : Approx x' y') :
    Approx (if p then x else x') (if p then y else y') := by
  split
  · exact h
  · exact h'

end Approx

theorem map_bind {ε α β γ : Type} (x : Except ε α) (f : α → Except ε β) (c : β → γ) :
    (x >>= f).map c = x >>= fun a => (f a).map c := by
  cases x <;> rfl

/-! ### Reading and writing -/

namespace Memory

/-- The image with bytes after its end. -/
def pad (m : Memory) (padding : Array UInt8) : Memory :=
  { m with bytes := m.bytes ++ padding }

variable (m : Memory) (padding : Array UInt8) (address : Nat)

theorem size_pad : (m.pad padding).size = m.size + padding.size :=
  Array.size_append

variable {m address} in
theorem getElem?_pad {byte : UInt8} (h : m.bytes[address]? = some byte) :
    (m.pad padding).bytes[address]? = some byte := by
  obtain ⟨hlt, -⟩ := Array.getElem?_eq_some_iff.1 h
  show (m.bytes ++ padding)[address]? = some byte
  rw [Array.getElem?_append_left hlt, h]

theorem approx_readByte : Approx (m.readByte address) ((m.pad padding).readByte address) := by
  cases hbyte : m.bytes[address]? with
  | none =>
    have hread : m.readByte address = .error (.outOfBounds address m.size) := by rw [readByte, hbyte]
    rw [hread]
    exact .pastEnd rfl
  | some byte =>
    rw [readByte_eq_ok_iff.2 hbyte, readByte_eq_ok_iff.2 (getElem?_pad padding hbyte)]
    exact .refl _

theorem approx_codeByte (part : Part) : Approx (m.codeByte part address) ((m.pad padding).codeByte part address) := by
  cases hbyte : m.bytes[address]? with
  | none =>
    have hread : m.codeByte part address = .error (.truncated part (address + 1) m.size) := by rw [codeByte, hbyte]
    rw [hread]
    exact .pastEnd rfl
  | some byte =>
    rw [codeByte, codeByte, hbyte, getElem?_pad padding hbyte]
    exact .refl _

theorem approx_readWord : Approx (m.readWord address) ((m.pad padding).readWord address) :=
  .bind (m.approx_readByte padding _) fun _ _ => .bind (m.approx_readByte padding _) fun _ _ => .refl _

theorem approx_readBytes (n : Nat) : Approx (m.readBytes address n) ((m.pad padding).readBytes address n) := by
  induction n generalizing address with
  | zero => exact .refl _
  | succ n ih => exact .bind (m.approx_readByte padding _) fun _ _ => .bind (ih _) fun _ _ => .refl _

theorem approx_readWords (n : Nat) : Approx (m.readWords address n) ((m.pad padding).readWords address n) := by
  induction n generalizing address with
  | zero => exact .refl _
  | succ n ih => exact .bind (m.approx_readWord padding _) fun _ _ => .bind (ih _) fun _ _ => .refl _

theorem approx_readSerial : Approx (m.readSerial address) ((m.pad padding).readSerial address) :=
  .bind (m.approx_readBytes padding _ _) fun _ _ => .refl _

/-- The end of the image is checked first, so a byte that must not be written is told from one that is missing. -/
theorem approx_checkWritable : Approx (m.checkWritable address) ((m.pad padding).checkWritable address) := by
  have hsize := m.size_pad padding
  unfold checkWritable
  by_cases hend : m.size ≤ address
  · rw [if_pos hend]
    exact .pastEnd rfl
  · rw [if_neg hend, if_neg (show ¬(m.pad padding).size ≤ address by omega)]
    exact .refl _

theorem approx_checkWritableWord :
    Approx (m.checkWritableWord address) ((m.pad padding).checkWritableWord address) :=
  .bind (m.approx_checkWritable padding _) fun _ _ => m.approx_checkWritable padding _

variable {m address}

theorem setByte_pad (h : address < m.size) (byte : UInt8) :
    (m.pad padding).setByte address byte = (m.setByte address byte).pad padding := by
  have hbytes : (m.bytes ++ padding).setIfInBounds address byte = m.bytes.setIfInBounds address byte ++ padding := by
    rw [Array.setIfInBounds_append_left h]
  show Memory.mk _ _ = Memory.mk _ _
  rw [show (m.pad padding).bytes = m.bytes ++ padding from rfl, hbytes]
  rfl

theorem setWord_pad (h : address + 1 < m.size) (word : UInt16) :
    (m.pad padding).setWord address word = (m.setWord address word).pad padding := by
  unfold setWord
  rw [setByte_pad padding (by omega), setByte_pad padding (by rw [size_setByte]; exact h)]

variable (m address)

theorem approx_writeByte (byte : UInt8) :
    Approx ((m.writeByte address byte).map (pad · padding)) ((m.pad padding).writeByte address byte) := by
  rw [writeByte, map_bind]
  refine .bind (m.approx_checkWritable padding address) fun _ hcheck => ?_
  rw [setByte_pad padding (checkWritable_eq_ok_iff.1 hcheck).1]
  exact .refl _

theorem approx_writeWord (word : UInt16) :
    Approx ((m.writeWord address word).map (pad · padding)) ((m.pad padding).writeWord address word) := by
  rw [writeWord, map_bind]
  refine .bind (m.approx_checkWritableWord padding address) fun _ hcheck => ?_
  rw [setWord_pad padding (checkWritableWord_eq_ok_iff.1 hcheck).1]
  exact .refl _

end Memory

/-! ### Properties -/

namespace PropertyTable

variable (t : PropertyTable) (m : Memory) (padding : Array UInt8) (object : UInt16) (property : UInt8)

theorem approx_entryAt (address : Nat) : Approx (t.entryAt m address) (t.entryAt (m.pad padding) address) := by
  refine .bind (m.approx_readByte padding _) fun first _ => .ite (.refl _) (.ite ?_ (.refl _))
  exact .bind (m.approx_readByte padding _) fun second _ => .refl _

/-- The walk goes on only from a byte of the image, so it is by induction on how much of the image is left. -/
theorem approx_findFrom (address : Nat) :
    Approx (t.findFrom m object property address) (t.findFrom (m.pad padding) object property address) := by
  induction hleft : m.size - address using Nat.strongRecOn generalizing address with
  | ind left ih =>
    rw [findFrom_eq, findFrom_eq]
    refine .bind (m.approx_readByte padding _) fun byte hbyte => .ite (.refl _) ?_
    refine .bind (t.approx_entryAt m padding _) fun e he => .ite (.refl _) ?_
    have hinside := lt_size_of_readByte hbyte
    have hheader := entryAt_headerSize_pos he
    exact ih _ (by omega) _ rfl

theorem approx_find : Approx (t.find m object property) (t.find (m.pad padding) object property) := by
  refine .bind (.refl _) fun entry _ => .bind (m.approx_readWord padding _) fun properties _ => ?_
  exact .bind (m.approx_readByte padding _) fun nameWords _ => t.approx_findFrom m padding object property _

theorem approx_checkSlot (slot : Slot) :
    Approx (checkSlot m object property slot) (checkSlot (m.pad padding) object property slot) :=
  .ite (m.approx_checkWritable padding _) (.ite (m.approx_checkWritableWord padding _) (.refl _))

variable {m object property} in
theorem fillSlot_pad {slot : Slot} (h : checkSlot m object property slot = .ok ()) (value : UInt16) :
    fillSlot (m.pad padding) slot value = (fillSlot m slot value).pad padding := by
  unfold checkSlot at h
  unfold fillSlot
  by_cases h1 : slot.size = 1
  · rw [if_pos h1] at h
    rw [if_pos h1, if_pos h1, Memory.setByte_pad padding (Memory.checkWritable_eq_ok_iff.1 h).1]
  · rw [if_neg h1] at h
    by_cases h2 : slot.size = 2
    · rw [if_pos h2] at h
      rw [if_neg h1, if_neg h1, Memory.setWord_pad padding (Memory.checkWritableWord_eq_ok_iff.1 h).1]
    · rw [if_neg h2] at h
      cases h

theorem approx_put (value : UInt16) :
    Approx ((t.put m object property value).map (Memory.pad · padding))
      (t.put (m.pad padding) object property value) := by
  rw [put, map_bind]
  refine .bind (t.approx_find m padding object property) fun slot _ => ?_
  rw [map_bind]
  refine .bind (approx_checkSlot m padding object property slot) fun _ hcheck => ?_
  rw [fillSlot_pad padding hcheck]
  exact .refl _

end PropertyTable

/-! ### Instructions -/

namespace Operand

theorem approx_readAll (m : Memory) (padding : Array UInt8) (address : Nat) (kinds : List OperandKind) :
    Approx (readAll m address kinds) (readAll (m.pad padding) address kinds) := by
  induction kinds generalizing address with
  | nil => exact .refl _
  | cons kind kinds ih =>
    cases kind with
    | omitted => exact .refl _
    | large =>
      refine .bind (m.approx_codeByte padding _ _) fun hi _ => .bind (m.approx_codeByte padding _ _) fun lo _ => ?_
      exact .bind (ih _) fun _ _ => .refl _
    | small | var =>
      exact .bind (m.approx_codeByte padding _ _) fun byte _ => .bind (ih _) fun _ _ => .refl _

end Operand

namespace Instruction

variable (m : Memory) (padding : Array UInt8) (address : Nat) (i : Instruction)

theorem approx_operandKinds (opcode : UInt8) :
    Approx (operandKinds m address opcode) (operandKinds (m.pad padding) address opcode) := by
  unfold operandKinds
  cases Form.ofOpcode opcode with
  | long | short => exact .refl _
  | var => exact .bind (m.approx_codeByte padding _ _) fun types _ => .refl _

theorem approx_decode : Approx (decode m address) (decode (m.pad padding) address) := by
  refine .bind (m.approx_codeByte padding _ _) fun opcode _ => ?_
  refine .bind (approx_operandKinds m padding address opcode) fun (kinds, start) _ => ?_
  exact .bind (Operand.approx_readAll m padding start _) fun _ _ => .refl _

theorem approx_readStore : Approx (i.readStore m) (i.readStore (m.pad padding)) :=
  .bind (m.approx_codeByte padding _ _) fun _ _ => .refl _

theorem approx_readBranch :
    Approx ((i.readBranch m).mapError Cut.fault) ((i.readBranch (m.pad padding)).mapError Cut.fault) := by
  rw [readBranch_eq, readBranch_eq]
  refine .bind (m.approx_codeByte padding _ _) fun first _ => .ite (.refl _) ?_
  exact .bind (m.approx_codeByte padding _ _) fun second _ => .refl _

theorem approx_complete : Approx (i.complete m) (i.complete (m.pad padding)) := by
  cases hop : Operation.lookup? i.count i.number with
  | none =>
    simp only [complete, hop]
    exact .refl _
  | some op =>
    rw [complete_eq hop, complete_eq hop]
    refine .bind (.ite (approx_readStore m padding i) (.refl _)) fun j _ => ?_
    exact .bind (.ite (approx_readBranch m padding j) (.refl _)) fun k _ => .refl _

theorem approx_fetch : Approx (fetch m address) (fetch (m.pad padding) address) :=
  .bind (approx_decode m padding address) fun i _ => approx_complete m padding i

end Instruction

/-! ### Story files -/

theorem Memory.approx_ofStory (bytes padding : Array UInt8) :
    Approx ((ofStory bytes).map (pad · padding)) (ofStory (bytes ++ padding)) := by
  unfold ofStory
  by_cases hsize : bytes.size < headerSize
  · rw [if_pos hsize]
    exact .pastEnd rfl
  · have hsize' : ¬(bytes ++ padding).size < headerSize := by
      rw [Array.size_append]
      omega
    have hbyte : ∀ k, k < headerSize → (bytes ++ padding).getD k 0 = bytes.getD k 0 := by
      intro k hk
      rw [Array.getD_eq_getD_getElem?, Array.getD_eq_getD_getElem?, Array.getElem?_append_left (by omega)]
    rw [if_neg hsize, if_neg hsize', hbyte 14 (by decide), hbyte 15 (by decide)]
    exact .refl _

theorem Header.approx_parse (m : Memory) (padding : Array UInt8) : Approx (parse m) (parse (m.pad padding)) := by
  have hsize := m.size_pad padding
  unfold parse
  by_cases hshort : m.size < headerSize
  · rw [if_pos hshort]
    exact .pastEnd rfl
  · rw [if_neg hshort, if_neg (show ¬(m.pad padding).size < headerSize by omega)]
    have byte := m.approx_readByte padding
    have word := m.approx_readWord padding
    refine .bind (byte 0) fun _ _ => .bind (byte 1) fun _ _ => .bind (word 2) fun _ _ => .bind (word 4) fun _ _ => ?_
    refine .bind (word 6) fun _ _ => .bind (word 8) fun _ _ => .bind (word 10) fun _ _ => .bind (word 12) fun _ _ => ?_
    refine .bind (word 14) fun _ _ => .bind (word 16) fun _ _ => .bind (m.approx_readSerial padding 18) fun _ _ => ?_
    exact .bind (word 24) fun _ _ => .bind (word 26) fun _ _ => .bind (word 28) fun _ _ => .refl _

end ZMachine
