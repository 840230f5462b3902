import ZMachine.Proofs.Invariant

/-!
# Static memory

A story can write to its dynamic memory only, the header included, and nothing it writes there changes the header that was
read when it was loaded.

* `Memory.Protects`: an image with the same static part;
* `Machine.Intact`: a machine that has kept all that a story cannot change;
* `Machine.Intact.invariant`: a step, successful or not, keeps it;
* `Machine.static_memory_never_written`: so does every run of a story.
-/

namespace ZMachine

/-! ### Images with the same static part -/

/-- An image that has the size, the base of static memory and the static part of another. -/
structure Memory.Protects (m m' : Memory) : Prop where
  size : m'.size = m.size
  staticBase : m'.staticBase = m.staticBase
  bytes : ∀ k, m.staticBase ≤ k → m'.bytes[k]? = m.bytes[k]?

namespace Memory

variable {m m₁ m₂ : Memory} {address : Nat} {byte : UInt8} {word : UInt16}

theorem Protects.refl (m : Memory) : m.Protects m :=
  ⟨rfl, rfl, fun _ _ => rfl⟩

theorem Protects.trans (h₁ : m.Protects m₁) (h₂ : m₁.Protects m₂) : m.Protects m₂ := by
  refine ⟨h₂.size.trans h₁.size, h₂.staticBase.trans h₁.staticBase, fun k hk => ?_⟩
  rw [h₂.bytes k (by rw [h₁.staticBase]; exact hk), h₁.bytes k hk]

theorem protects_of_writeByte (h : m.writeByte address byte = .ok m₁) : m.Protects m₁ := by
  obtain ⟨-, hb, rfl⟩ := writeByte_eq_ok_iff.1 h
  refine ⟨size_setByte m address byte, rfl, fun k hk => ?_⟩
  rw [getElem?_setByte, if_neg (by omega)]

theorem protects_of_writeWord (h : m.writeWord address word = .ok m₁) : m.Protects m₁ := by
  obtain ⟨-, hb, rfl⟩ := writeWord_eq_ok_iff.1 h
  refine ⟨size_setWord m address word, rfl, fun k hk => ?_⟩
  rw [getElem?_setWord, if_neg (by omega), if_neg (by omega)]

theorem protects_of_writes (h : m.Writes m₁) : m.Protects m₁ := by
  cases h with
  | byte h => exact protects_of_writeByte h
  | word h => exact protects_of_writeWord h

end Memory

/-! ### Machines that have kept what a story cannot change -/

/-- A machine that has kept what a story cannot change in another: the header, the table that property writes go to, and
static memory. -/
structure Machine.Intact (m m' : Machine) : Prop where
  header : m'.header = m.header
  objects : ∀ t, m.objects = .table t → m'.objects = .table t
  memory : m.memory.Protects m'.memory

namespace Machine

variable {m m₁ m₂ : Machine} {target : Variable} {value : UInt16}

namespace Intact

theorem refl (m : Machine) : m.Intact m :=
  ⟨rfl, fun _ h => h, .refl m.memory⟩

/-- The call stack and the place in the story make no difference. -/
theorem of_eq (h : m.Intact m₁) (hh : m₂.header = m₁.header) (ho : m₂.objects = m₁.objects)
    (hm : m₂.memory = m₁.memory) : m.Intact m₂ := by
  refine ⟨hh.trans h.header, fun t ht => ho.trans (h.objects t ht), ?_⟩
  rw [hm]
  exact h.memory

theorem with_memory {memory : Memory} (h : m.Intact m₁) (hm : m₁.memory.Protects memory) :
    m.Intact { m₁ with memory } :=
  ⟨h.header, h.objects, h.memory.trans hm⟩

theorem of_sets (h : m.Intact m₁) (hs : m₁.Sets value m₂) : m.Intact m₂ := by
  cases hs with
  | push _ | replaceTop _ | writeLocal _ => exact h.of_eq rfl rfl rfl
  | writeGlobal hm => exact h.with_memory (Memory.protects_of_writeWord hm)

theorem of_put? {object : UInt16} {property : UInt8} (h : m.Intact m₁)
    (hp : m₁.put? object property value = .ok m₂) : m.Intact m₂ := by
  unfold put? at hp
  split at hp
  · obtain ⟨memory, hm, rfl⟩ := map_eq_ok_iff.1 hp
    exact h.with_memory (Memory.protects_of_writes (PropertyTable.writes_of_put hm))
  · next writes ho =>
    cases hp
    refine ⟨h.header, fun t ht => ?_, h.memory⟩
    rw [h.objects t ht] at ho
    cases ho

/-- What a story cannot change survives every step. -/
theorem invariant (m : Machine) : Invariant m.Intact where
  place _ _ h := h.of_eq rfl rfl rfl
  discard _ h := h.of_eq rfl rfl rfl
  sets h hs := h.of_sets hs
  writes h hw := h.with_memory (Memory.protects_of_writes hw)
  put h hp := h.of_put? hp
  enter h _ he := by
    obtain ⟨frame, start, -, -, hm⟩ := enter?_eq_ok he
    rw [hm]
    exact h.of_eq rfl rfl rfl
  caller h hc := by
    rw [(caller?_eq_some hc).2]
    exact h.of_eq rfl rfl rfl

end Intact

/-! ### Runs of a story -/

/-- What a story leaves as it was loaded from a file. -/
structure KeepsStory (bytes : Array UInt8) (loaded m : Machine) : Prop where
  static : ∀ address, m.memory.staticBase ≤ address → m.memory.bytes[address]? = bytes[address]?
  size : m.memory.size = bytes.size
  staticBase : m.memory.staticBase = loaded.memory.staticBase
  staticBase_eq_header : m.memory.staticBase = m.header.staticMemory.toNat
  /-- The header is that of the file, whatever has become of the bytes it was read from. -/
  header : m.header = loaded.header
  header_of_file : Header.parse ⟨bytes, m.memory.staticBase⟩ = .ok m.header
  globals : ∀ index, m.globalAddress index = loaded.globalAddress index
  objects : m.objects = .table (.ofHeader m.header)

/-- **Static memory is never written.**  After any number of steps of a story, successful or not, the bytes at and above the
base of static memory, the size of the image, the base itself, the header and the address of the globals are those of the
file, and the base is the one that the header gives. -/
theorem static_memory_never_written {bytes : Array UInt8} (h : load bytes = .ok m) (n : Nat) :
    KeepsStory bytes m (m.after n) := by
  obtain ⟨hm, hbytes, hparse, hbase⟩ := load_spec h
  have hk := (Intact.invariant m).after (.refl m) n
  refine ⟨fun address ha => ?_, ?_, hk.memory.staticBase, ?_, hk.header, ?_, fun index => ?_, ?_⟩
  · rw [hk.memory.staticBase] at ha
    rw [hk.memory.bytes address ha, hbytes]
  · rw [hk.memory.size, Memory.size, hbytes]
  · rw [hk.memory.staticBase, hk.header, hbase]
  · rw [hk.memory.staticBase, hk.header, ← hbytes]
    exact hparse
  · rw [globalAddress, hk.header, globalAddress]
  · rw [hk.header]
    exact hk.objects _ (by rw [hm]; rfl)

/-- A story that overwrites a byte of its header and then tries to write a word across the base of static memory. -/
def intruder : Array UInt8 :=
  #[3, 0, 0, 1, 0, 34, 0, 34, 0, 34, 0, 34, 0, 16, 0, 34, 0, 0, 48, 48, 48, 48, 48, 48, 0, 34, 0, 0, 0, 0, 0, 0, 0, 0,
    0xE2, 0x57, 0x00, 0x0C, 0xFF, 0xE1, 0x57, 0x21, 0x00, 0x7F]

theorem intruder_keeps_story :
    ∃ m, load intruder = .ok m ∧ (m.after 2).memory.bytes[12]? = some 255 ∧
      (m.after 1).step.result = .error ⟨39, 1, 1, .readOnly 34 34⟩ ∧ KeepsStory intruder m (m.after 2) :=
  ⟨_, rfl, rfl, rfl, static_memory_never_written rfl 2⟩

end Machine

end ZMachine
