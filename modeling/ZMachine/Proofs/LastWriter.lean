import ZMachine.Proofs.Memory

/-!
# Memory as a store

Whatever has been done to a memory, a byte of it is the one that was put there last, by a write that succeeded, or else the
one that was there at first.

* `Memory.Access`, `Memory.serve`: the four kinds of access, and what each comes to;
* `Memory.Access.puts`, `Memory.Entry.put?`: the bytes that a write puts into memory, if it succeeds;
* `Memory.serve_cases`, `Memory.getElem?_serve`: what one access can do;
* `Memory.history`, `Memory.latestPut`, `Memory.getElem?_afterAll`: any number of them;
* `Memory.last_writer_wins`: the whole account.
-/

namespace ZMachine.Memory

/-! ### Accesses -/

/-- An access to memory. -/
inductive Access where
  | readByte (address : Nat)
  | readWord (address : Nat)
  | writeByte (address : Nat) (byte : UInt8)
  | writeWord (address : Nat) (word : UInt16)
deriving DecidableEq, Repr

/-- What an access that succeeds answers. -/
inductive Answer where
  | byte (byte : UInt8)
  | word (word : UInt16)
  | written
deriving DecidableEq, Repr

namespace Access

/-- Whether an access is a write. -/
def isWrite : Access → Bool
  | .readByte _ | .readWord _ => false
  | .writeByte _ _ | .writeWord _ _ => true

/-- The bytes that an access puts into memory if it succeeds, each with its address: the high byte of a word stands at its
address, the low byte at the next. -/
def puts : Access → List (Nat × UInt8)
  | .readByte _ | .readWord _ => []
  | .writeByte address byte => [(address, byte)]
  | .writeWord address word => [(address, Word.high word), (address + 1, Word.low word)]

/-- The access as an action of a machine. -/
def action : Access → Action Answer
  | .readByte address => do
    let m ← Action.machine
    return .byte (← m.memory.readByte address)
  | .readWord address => do
    let m ← Action.machine
    return .word (← m.memory.readWord address)
  | .writeByte address byte => do
    Action.writeByte address byte
    return .written
  | .writeWord address word => do
    Action.writeWord address word
    return .written

end Access

/-- What a write comes to: there is another memory, or the one there was and a fault. -/
def settle (m : Memory) : Except Fault Memory → Except Fault Answer × Memory
  | .ok m' => (.ok .written, m')
  | .error fault => (.error fault, m)

/-- What an access comes to, and the memory after it. -/
def serve (m : Memory) : Access → Except Fault Answer × Memory
  | .readByte address => ((m.readByte address).map .byte, m)
  | .readWord address => ((m.readWord address).map .word, m)
  | .writeByte address byte => m.settle (m.writeByte address byte)
  | .writeWord address word => m.settle (m.writeWord address word)

/-- An access that has been made, and what it came to. -/
structure Entry where
  access : Access
  result : Except Fault Answer

/-- The byte that an access has put at an address, if it succeeded and covers the address. -/
def Entry.put? (entry : Entry) (address : Nat) : Option UInt8 :=
  if entry.result.isOk then entry.access.puts.lookup address else none

/-- The memory after a number of accesses. -/
def afterAll (m : Memory) : List Access → Memory
  | [] => m
  | access :: accesses => (m.serve access).2.afterAll accesses

/-- What a number of accesses came to, in their order. -/
def history (m : Memory) : List Access → List Entry
  | [] => []
  | access :: accesses => ⟨access, (m.serve access).1⟩ :: (m.serve access).2.history accesses

/-- The byte that the most recent of the successful writes covering an address has put there, if there is one. -/
def latestPut (history : List Entry) (address : Nat) : Option UInt8 :=
  history.reverse.findSome? fun entry => entry.put? address

/-! ### One access -/

variable {m : Memory} {address : Nat}

theorem readByte_isOk_iff : (m.readByte address).isOk ↔ address < m.size := by
  constructor
  · intro h
    cases hb : m.readByte address with
    | error fault =>
      rw [hb] at h
      cases h
    | ok byte => exact PropertyTable.lt_size_of_readByte hb
  · intro h
    obtain ⟨byte, hb⟩ := exists_readByte h
    rw [hb]
    rfl

theorem readWord_isOk_iff : (m.readWord address).isOk ↔ address + 1 < m.size := by
  constructor
  · intro h
    cases hw : m.readWord address with
    | error fault =>
      rw [hw] at h
      cases h
    | ok word =>
      obtain ⟨hi, lo, -, hlo, -⟩ := readWord_eq_ok_iff.1 hw
      exact (Array.getElem?_eq_some_iff.1 hlo).1
  · intro h
    obtain ⟨word, hw⟩ := exists_readWord h
    rw [hw]
    rfl

/-- The memory with some bytes put into it, one after the other. -/
def putAll (m : Memory) (puts : List (Nat × UInt8)) : Memory :=
  puts.foldl (fun m put => m.setByte put.1 put.2) m

/-- **What an access can do.**  It fails and changes nothing, and a write then covers a byte that cannot be written; or it
succeeds, can write all the bytes that it covers, and has put them all. -/
theorem serve_cases (m : Memory) (access : Access) :
    (∃ fault, m.serve access = (.error fault, m) ∧
      (access.isWrite → ¬∀ put ∈ access.puts, put.1 < m.size ∧ put.1 < m.staticBase)) ∨
    ∃ answer, m.serve access = (.ok answer, m.putAll access.puts) ∧
      ∀ put ∈ access.puts, put.1 < m.size ∧ put.1 < m.staticBase := by
  cases access with
  | readByte address =>
    cases h : m.readByte address with
    | error fault => exact .inl ⟨fault, by rw [serve, h]; rfl, nofun⟩
    | ok byte => exact .inr ⟨.byte byte, by rw [serve, h]; rfl, nofun⟩
  | readWord address =>
    cases h : m.readWord address with
    | error fault => exact .inl ⟨fault, by rw [serve, h]; rfl, nofun⟩
    | ok word => exact .inr ⟨.word word, by rw [serve, h]; rfl, nofun⟩
  | writeByte address byte =>
    cases h : m.writeByte address byte with
    | error fault =>
      refine .inl ⟨fault, by rw [serve, h]; rfl, fun _ hputs => ?_⟩
      obtain ⟨hs, hb⟩ := hputs (address, byte) (List.mem_singleton.2 rfl)
      rw [writeByte_eq_ok_iff.2 ⟨hs, hb, rfl⟩] at h
      cases h
    | ok m' =>
      obtain ⟨hs, hb, rfl⟩ := writeByte_eq_ok_iff.1 h
      refine .inr ⟨.written, by rw [serve, h]; rfl, fun put hput => ?_⟩
      rw [List.mem_singleton.1 hput]
      exact ⟨hs, hb⟩
  | writeWord address word =>
    cases h : m.writeWord address word with
    | error fault =>
      refine .inl ⟨fault, by rw [serve, h]; rfl, fun _ hputs => ?_⟩
      obtain ⟨hs, hb⟩ := hputs (address + 1, Word.low word) (List.mem_cons_of_mem _ (List.mem_singleton.2 rfl))
      rw [writeWord_eq_ok_iff.2 ⟨hs, hb, rfl⟩] at h
      cases h
    | ok m' =>
      obtain ⟨hs, hb, rfl⟩ := writeWord_eq_ok_iff.1 h
      refine .inr ⟨.written, by rw [serve, h]; rfl, fun put hput => ?_⟩
      simp only [Access.puts, List.mem_cons, List.not_mem_nil, or_false] at hput
      rcases hput with rfl | rfl
      · exact ⟨Nat.lt_of_succ_lt hs, Nat.lt_of_succ_lt hb⟩
      · exact ⟨hs, hb⟩

/-- A write succeeds if all the bytes that it covers can be written. -/
theorem serve_isOk_iff {access : Access} (h : access.isWrite) :
    (m.serve access).1.isOk ↔ ∀ put ∈ access.puts, put.1 < m.size ∧ put.1 < m.staticBase := by
  rcases m.serve_cases access with ⟨fault, hs, hputs⟩ | ⟨answer, hs, hputs⟩
  · rw [hs]
    exact ⟨nofun, fun hall => absurd hall (hputs h)⟩
  · rw [hs]
    exact ⟨fun _ => hputs, fun _ => rfl⟩

/-- What does not succeed changes nothing. -/
theorem serve_of_error {access : Access} {fault : Fault} (h : (m.serve access).1 = .error fault) :
    (m.serve access).2 = m := by
  rcases m.serve_cases access with ⟨fault', hs, -⟩ | ⟨answer, hs, -⟩
  · rw [hs]
  · rw [hs] at h
    cases h

/-- A machine does with its memory what the access comes to, and nothing else. -/
theorem Access.report_action (access : Access) (machine : Machine) :
    access.action.report machine =
      ⟨(machine.memory.serve access).1, { machine with memory := (machine.memory.serve access).2 }, []⟩ := by
  cases access with
  | readByte address =>
    cases h : machine.memory.readByte address <;> simp [action, serve, Action.report_bind, h]
  | readWord address =>
    cases h : machine.memory.readWord address <;> simp [action, serve, Action.report_bind, h]
  | writeByte address byte =>
    cases h : machine.memory.writeByte address byte <;>
      simp [action, serve, settle, Action.report_bind, Action.report_writeByte, h]
  | writeWord address word =>
    cases h : machine.memory.writeWord address word <;>
      simp [action, serve, settle, Action.report_bind, Action.report_writeWord, h]

theorem putAll_shape (m : Memory) (puts : List (Nat × UInt8)) :
    (m.putAll puts).size = m.size ∧ (m.putAll puts).staticBase = m.staticBase := by
  induction puts generalizing m with
  | nil => exact ⟨rfl, rfl⟩
  | cons put puts ih =>
    obtain ⟨hsize, hbase⟩ := ih (m.setByte put.1 put.2)
    exact ⟨hsize.trans (size_setByte m put.1 put.2), hbase⟩

/-- The bytes after a write.  The addresses that one write covers are different, so their order makes no difference. -/
theorem getElem?_putAll {access : Access} (h : ∀ put ∈ access.puts, put.1 < m.size) (k : Nat) :
    (m.putAll access.puts).bytes[k]? = (access.puts.lookup k).or m.bytes[k]? := by
  cases access with
  | readByte address | readWord address => rfl
  | writeByte address byte =>
    have hs : address < m.size := h (address, byte) (List.mem_singleton.2 rfl)
    show (m.setByte address byte).bytes[k]? = _
    rw [getElem?_setByte]
    by_cases hk : k = address
    · subst hk
      simp [Access.puts, hs]
    · simp [Access.puts, List.lookup_cons, hk, beq_eq_false_iff_ne.2 hk]
  | writeWord address word =>
    have hs : address + 1 < m.size := h (address + 1, Word.low word) (List.mem_cons_of_mem _ (List.mem_singleton.2 rfl))
    show (m.setWord address word).bytes[k]? = _
    rw [getElem?_setWord]
    by_cases hlo : k = address + 1
    · subst hlo
      simp [Access.puts, List.lookup_cons, hs, beq_eq_false_iff_ne.2 (Nat.succ_ne_self address)]
    · by_cases hhi : k = address
      · subst hhi
        simp [Access.puts, Nat.lt_of_succ_lt hs]
      · simp [Access.puts, List.lookup_cons, hlo, hhi, beq_eq_false_iff_ne.2 hlo, beq_eq_false_iff_ne.2 hhi]

/-- **A byte after one access**: the one that the access has put there, or else the one that was there. -/
theorem getElem?_serve (m : Memory) (access : Access) (k : Nat) :
    (m.serve access).2.bytes[k]? = (Entry.put? ⟨access, (m.serve access).1⟩ k).or m.bytes[k]? := by
  rcases m.serve_cases access with ⟨fault, hs, -⟩ | ⟨answer, hs, hputs⟩
  · rw [hs]
    rfl
  · rw [hs]
    exact getElem?_putAll (fun put hput => (hputs put hput).1) k

/-- An access keeps the size and the base of static memory. -/
theorem serve_shape (m : Memory) (access : Access) :
    (m.serve access).2.size = m.size ∧ (m.serve access).2.staticBase = m.staticBase := by
  rcases m.serve_cases access with ⟨fault, hs, -⟩ | ⟨answer, hs, -⟩
  · rw [hs]
    exact ⟨rfl, rfl⟩
  · rw [hs]
    exact m.putAll_shape access.puts

/-! ### Any number of accesses -/

theorem latestPut_cons (entry : Entry) (history : List Entry) (address : Nat) :
    latestPut (entry :: history) address = (latestPut history address).or (entry.put? address) := by
  unfold latestPut
  rw [List.reverse_cons, List.findSome?_append]
  cases hp : entry.put? address <;> simp [hp]

theorem afterAll_shape (m : Memory) (accesses : List Access) :
    (m.afterAll accesses).size = m.size ∧ (m.afterAll accesses).staticBase = m.staticBase := by
  induction accesses generalizing m with
  | nil => exact ⟨rfl, rfl⟩
  | cons access accesses ih =>
    obtain ⟨hsize, hbase⟩ := ih (m.serve access).2
    obtain ⟨hsize', hbase'⟩ := m.serve_shape access
    exact ⟨hsize.trans hsize', hbase.trans hbase'⟩

/-- **A byte after any number of accesses**: the one that was put there last, or else the one that was there at first. -/
theorem getElem?_afterAll (m : Memory) (accesses : List Access) (k : Nat) :
    (m.afterAll accesses).bytes[k]? = (latestPut (m.history accesses) k).or m.bytes[k]? := by
  induction accesses generalizing m with
  | nil => rfl
  | cons access accesses ih =>
    calc ((m.serve access).2.afterAll accesses).bytes[k]?
        = (latestPut ((m.serve access).2.history accesses) k).or (m.serve access).2.bytes[k]? := ih _
      _ = (latestPut ((m.serve access).2.history accesses) k).or
            ((Entry.put? ⟨access, (m.serve access).1⟩ k).or m.bytes[k]?) := by rw [getElem?_serve]
      _ = (latestPut (m.history (access :: accesses)) k).or m.bytes[k]? := by
        rw [history, latestPut_cons, Option.or_assoc]

/-- What is known of a memory after a number of accesses to it. -/
structure LastWriterWins (m : Memory) (accesses : List Access) : Prop where
  size : (m.afterAll accesses).size = m.size
  staticBase : (m.afterAll accesses).staticBase = m.staticBase
  write_succeeds_iff : ∀ access, access.isWrite →
    (((m.afterAll accesses).serve access).1.isOk ↔ ∀ put ∈ access.puts, put.1 < m.size ∧ put.1 < m.staticBase)
  failure_changes_nothing : ∀ access fault, ((m.afterAll accesses).serve access).1 = .error fault →
    ((m.afterAll accesses).serve access).2 = m.afterAll accesses
  /-- A machine with this memory does no more than the access comes to, so that a failed one leaves it as it was. -/
  machine : ∀ (access : Access) (machine : Machine), machine.memory = m.afterAll accesses →
    access.action.report machine = ⟨((m.afterAll accesses).serve access).1,
      { machine with memory := ((m.afterAll accesses).serve access).2 }, []⟩
  readByte_succeeds_iff : ∀ address, ((m.afterAll accesses).readByte address).isOk ↔ address < m.size
  readByte_eq_ok_iff : ∀ address byte, (m.afterAll accesses).readByte address = .ok byte ↔
    (latestPut (m.history accesses) address).or m.bytes[address]? = some byte
  readWord_succeeds_iff : ∀ address, ((m.afterAll accesses).readWord address).isOk ↔ address + 1 < m.size
  readWord_eq : ∀ address word, (m.afterAll accesses).readWord address = .ok word →
    ∃ hi lo, (m.afterAll accesses).readByte address = .ok hi ∧ (m.afterAll accesses).readByte (address + 1) = .ok lo ∧
      word.toNat = 256 * hi.toNat + lo.toNat

/-- **The last writer wins.**  After any accesses to a memory, its size and the base of static memory are what they were; a
write succeeds exactly if all the bytes it covers lie inside the image and below that base, and otherwise changes nothing;
a byte can be read exactly if it lies inside the image, and is the one put there by the most recent successful write that
covers its address, or else the original one; a word is made of its two bytes, the high one first. -/
theorem last_writer_wins (m : Memory) (accesses : List Access) : m.LastWriterWins accesses := by
  obtain ⟨hsize, hbase⟩ := m.afterAll_shape accesses
  refine ⟨hsize, hbase, fun access hw => ?_, fun access fault h => serve_of_error h, fun access machine hm => ?_,
    fun address => ?_, fun address byte => ?_, fun address => ?_, fun address word h => ?_⟩
  · rw [serve_isOk_iff hw, hsize, hbase]
  · rw [← hm]
    exact access.report_action machine
  · rw [readByte_isOk_iff, hsize]
  · rw [readByte_eq_ok_iff, getElem?_afterAll]
  · rw [readWord_isOk_iff, hsize]
  · obtain ⟨hi, lo, hhi, hlo, rfl⟩ := readWord_eq_ok_iff.1 h
    exact ⟨hi, lo, readByte_eq_ok_iff.2 hhi, readByte_eq_ok_iff.2 hlo, Word.toNat_ofBytes hi lo⟩

-- the last write straddles the base of static memory and puts neither of its bytes
example :
    let m : Memory := ⟨#[1, 2, 3, 4], 3⟩
    (m.afterAll [.writeWord 0 0xBEEF, .writeByte 1 7, .writeWord 2 0xABCD]).bytes = #[0xBE, 7, 3, 4] := by decide

end ZMachine.Memory
