import ZMachine.Proofs.Checked.Perform
import ZMachine.Proofs.Memory
import ZMachine.Proofs.Stages

/-!
# Entering a routine

A call reads the header of a routine and builds a frame from it and from the arguments.  It can fail for four reasons, which
are looked for in a fixed order, and then no frame is built.

* `Memory.readWords_eq_ok`, `Memory.readWords_of_size_lt`: reading the initial values of locals;
* `Machine.CanEnter`, `Machine.EntryFault`: a routine that can be entered, and the first reason why one cannot be;
* `Frame.BuiltFor`, `Machine.enter?_cases`: the frame that a call builds; entering a routine succeeds or fails for one of
  these reasons;
* `Machine.call_builds_frame`: the step of a call.
-/

namespace ZMachine

/-! ### Reading words -/

namespace Memory

variable {m : Memory} {address n : Nat} {words : List UInt16}

theorem readByte_of_size_le (h : m.size ≤ address) : m.readByte address = .error (.outOfBounds address m.size) := by
  unfold readByte
  rw [Array.getElem?_eq_none h]

/-- A word that does not end inside the image ends the reading at the first byte outside. -/
theorem readWord_of_size_le (h : address ≤ m.size) (h' : m.size ≤ address + 1) :
    m.readWord address = .error (.outOfBounds m.size m.size) := by
  unfold readWord
  by_cases heq : address = m.size
  · rw [heq, readByte_of_size_le (Nat.le_refl _), error_bind]
  · obtain ⟨hi, hhi⟩ := exists_readByte (show address < m.size by omega)
    have hlo : address + 1 = m.size := by omega
    rw [hhi, ok_bind, hlo, readByte_of_size_le (Nat.le_refl _), error_bind]

theorem exists_readWords (h : address + 2 * n ≤ m.size) : ∃ words, m.readWords address n = .ok words := by
  induction n generalizing address with
  | zero => exact ⟨[], rfl⟩
  | succ n ih =>
    obtain ⟨word, hword⟩ := exists_readWord (show address + 1 < m.size by omega)
    obtain ⟨words, hwords⟩ := ih (show address + 2 + 2 * n ≤ m.size by omega)
    exact ⟨word :: words, bind_eq_ok_iff.2 ⟨word, hword, bind_eq_ok_iff.2 ⟨words, hwords, rfl⟩⟩⟩

/-- Words that do not all lie inside the image end the reading at the first byte outside. -/
theorem readWords_of_size_lt (h : address ≤ m.size) (h' : m.size < address + 2 * n) :
    m.readWords address n = .error (.outOfBounds m.size m.size) := by
  induction n generalizing address with
  | zero => omega
  | succ n ih =>
    unfold readWords
    by_cases hword : m.size ≤ address + 1
    · rw [readWord_of_size_le h hword, error_bind]
    · obtain ⟨word, hw⟩ := exists_readWord (Nat.not_le.1 hword)
      rw [hw, ok_bind, ih (by omega) (by omega), error_bind]

/-- The words that have been read stand one after the other. -/
theorem readWords_eq_ok (h : m.readWords address n = .ok words) :
    words.length = n ∧ ∀ k, k < n → ∃ word, m.readWord (address + 2 * k) = .ok word ∧ words[k]? = some word := by
  induction n generalizing address words with
  | zero =>
    cases h
    exact ⟨rfl, nofun⟩
  | succ n ih =>
    obtain ⟨word, hword, h⟩ := bind_eq_ok_iff.1 h
    obtain ⟨rest, hrest, h⟩ := bind_eq_ok_iff.1 h
    cases h
    obtain ⟨hlength, hwords⟩ := ih hrest
    refine ⟨by rw [List.length_cons, hlength], fun k hk => ?_⟩
    cases k with
    | zero => exact ⟨word, hword, rfl⟩
    | succ k =>
      obtain ⟨w, hw, hget⟩ := hwords k (by omega)
      refine ⟨w, ?_, hget⟩
      rw [← hw]
      congr 1
      omega

end Memory

/-! ### Routines that can be entered -/

/-- A routine that can be called: the byte at its address gives the number of its locals, which is not more than there are
slots; up to version 4 it is followed by their initial values; and there is room for one more frame. -/
structure Machine.CanEnter (m : Machine) (routine : Nat) (declared : UInt8) : Prop where
  header : m.memory.bytes[routine]? = some declared
  declared_le : declared.toNat ≤ 15
  initial : m.version ≤ 4 → routine + 1 + 2 * declared.toNat ≤ m.memory.size
  depth : m.calls.depth < 1024

/-- Why a routine cannot be called.  Each reason supposes that none of those before it applies. -/
inductive Machine.EntryFault (m : Machine) (routine : Nat) : Fault → Prop
  | outside (h : m.memory.size ≤ routine) : EntryFault m routine (.outOfBounds routine m.memory.size)
  | declared {declared : UInt8} (header : m.memory.bytes[routine]? = some declared) (h : 15 < declared.toNat) :
      EntryFault m routine (.badRoutine routine declared)
  /-- The first byte that is missing is the first one outside the image. -/
  | initial {declared : UInt8} (header : m.memory.bytes[routine]? = some declared) (declared_le : declared.toNat ≤ 15)
      (version : m.version ≤ 4) (h : m.memory.size < routine + 1 + 2 * declared.toNat) :
      EntryFault m routine (.outOfBounds m.memory.size m.memory.size)
  | depth {declared : UInt8} (header : m.memory.bytes[routine]? = some declared) (declared_le : declared.toNat ≤ 15)
      (initial : m.version ≤ 4 → routine + 1 + 2 * declared.toNat ≤ m.memory.size) (h : 1024 ≤ m.calls.depth) :
      EntryFault m routine (.callDepthExceeded 1024)

/-- The frame of a call to a routine.  The locals that have an argument start with it; up to version 4 the others start with
the words that follow the routine's first byte, later with zero. -/
structure Frame.BuiltFor (f : Frame) (m : Machine) (routine : Nat) (declared : UInt8) (arguments : List UInt16)
    (returnPc : UInt32) (returnStore : Option UInt8) : Prop where
  routine_eq : f.routine.toNat = routine
  returnPc_eq : f.returnPc = returnPc
  returnStore_eq : f.returnStore = returnStore
  declared_eq : f.declared = declared
  argument : ∀ slot (h : slot < arguments.length), slot < declared.toNat → f.locals[slot]? = some arguments[slot]
  initial : ∀ slot, arguments.length ≤ slot → slot < declared.toNat → m.version ≤ 4 →
    ∃ word, m.memory.readWord (routine + 1 + 2 * slot) = .ok word ∧ f.locals[slot]? = some word
  zero : ∀ slot, arguments.length ≤ slot → slot < declared.toNat → 4 < m.version → f.locals[slot]? = some 0
  undeclared : ∀ slot, declared.toNat ≤ slot → slot < 15 → f.locals[slot]? = some 0
  stack : f.stack = []

/-- Where the instructions of a routine start. -/
def Machine.codeStart (m : Machine) (routine : Nat) (declared : UInt8) : Nat :=
  routine + 1 + if m.version ≤ 4 then 2 * declared.toNat else 0

namespace Machine

variable {m : Machine} {routine : Nat} {declared : UInt8} {arguments : List UInt16} {returnStore : Option UInt8}
  {fault : Fault}

/-- A routine that there is a reason not to enter cannot be entered. -/
theorem EntryFault.not_canEnter (h : m.EntryFault routine fault) : ¬m.CanEnter routine declared := by
  intro hcan
  have hlt : routine < m.memory.size := (Array.getElem?_eq_some_iff.1 hcan.header).1
  cases h with
  | outside h => omega
  | declared header h =>
    cases header.symm.trans hcan.header
    have := hcan.declared_le
    omega
  | initial header declared_le version h =>
    cases header.symm.trans hcan.header
    have := hcan.initial version
    omega
  | depth header declared_le initial h =>
    have := hcan.depth
    omega

/-- What a call reads of a routine: the words after its first byte if the version has them, and where its instructions
start. -/
theorem routineStart_eq (declared : UInt8) (hlt : routine < m.memory.size) :
    (∃ initial, Action.routineStart m routine declared = .ok (initial, m.codeStart routine declared) ∧
      (m.version ≤ 4 → routine + 1 + 2 * declared.toNat ≤ m.memory.size ∧
        ∀ slot, slot < declared.toNat →
          ∃ word, m.memory.readWord (routine + 1 + 2 * slot) = .ok word ∧ initial[slot]? = some word) ∧
      (4 < m.version → initial = [])) ∨
    m.version ≤ 4 ∧ m.memory.size < routine + 1 + 2 * declared.toNat ∧
      Action.routineStart m routine declared = .error (.outOfBounds m.memory.size m.memory.size) := by
  unfold Action.routineStart codeStart
  by_cases hversion : m.version ≤ 4
  · simp only [if_pos hversion]
    by_cases hsize : m.memory.size < routine + 1 + 2 * declared.toNat
    · right
      rw [Memory.readWords_of_size_lt (show routine + 1 ≤ m.memory.size by omega) hsize]
      exact ⟨hversion, hsize, rfl⟩
    · left
      obtain ⟨words, hwords⟩ := Memory.exists_readWords (Nat.not_lt.1 hsize)
      rw [hwords]
      refine ⟨words, rfl, fun _ => ⟨Nat.not_lt.1 hsize, (Memory.readWords_eq_ok hwords).2⟩, fun h => ?_⟩
      exact absurd hversion (UInt8.not_le.2 h)
  · left
    simp only [if_neg hversion]
    exact ⟨[], rfl, fun h => absurd h hversion, fun _ => rfl⟩

/-- The locals of a new frame. -/
theorem builtFor_setLocals {frame : Frame} {initial : List UInt16} {returnPc : UInt32} (hroutine : routine < UInt32.size)
    (hframe : Frame.create (UInt32.ofNat routine) returnPc returnStore declared = .ok frame)
    (hwords : m.version ≤ 4 → ∀ slot, slot < declared.toNat →
      ∃ word, m.memory.readWord (routine + 1 + 2 * slot) = .ok word ∧ initial[slot]? = some word)
    (hnone : 4 < m.version → initial = []) :
    (frame.setLocals initial arguments).BuiltFor m routine declared arguments returnPc returnStore := by
  obtain ⟨hdeclared, rfl⟩ := Frame.create_eq_ok_iff.1 hframe
  have hlimit : declared.toNat ≤ 15 := hdeclared
  generalize hf : ({ Frame.outermost with routine := UInt32.ofNat routine, returnPc, returnStore, declared } : Frame) = f
  have hsame := f.sameCall_setLocals initial arguments
  -- what each slot takes: a frame is made with zeros, and only declared locals are set
  have hslot : ∀ slot, slot < 15 → (f.setLocals initial arguments).locals[slot]? =
      some (if slot < declared.toNat then (arguments[slot]? <|> initial[slot]?).getD 0 else 0) := by
    intro slot hs
    have hlt : slot < localLimit := hs
    have hzero : f.locals[slot] = 0 := by
      rw [← hf]
      exact Vector.getElem_replicate hlt
    have hcount : f.declared = declared := by rw [← hf]
    rw [Vector.getElem?_eq_getElem hlt, Frame.getElem_setLocals f initial arguments hlt, hzero, hcount]
  refine ⟨?_, ?_, ?_, ?_, ?_, ?_, ?_, ?_, ?_⟩
  · rw [hsame.routine, ← hf]
    exact UInt32.toNat_ofNat_of_lt' hroutine
  · rw [hsame.returnPc, ← hf]
  · rw [hsame.returnStore, ← hf]
  · rw [hsame.declared, ← hf]
  · intro slot h hs
    rw [hslot slot (by omega), if_pos hs, List.getElem?_eq_getElem h]
    rfl
  · intro slot h hs hversion
    obtain ⟨word, hword, hget⟩ := hwords hversion slot hs
    refine ⟨word, hword, ?_⟩
    rw [hslot slot (by omega), if_pos hs, List.getElem?_eq_none h, hget]
    rfl
  · intro slot h hs hversion
    rw [hslot slot (by omega), if_pos hs, List.getElem?_eq_none h, hnone hversion]
    rfl
  · intro slot hs hs'
    rw [hslot slot hs', if_neg (Nat.not_lt.2 hs)]
  · rw [Frame.stack_setLocals, ← hf]
    rfl

/-- **Entering a routine** succeeds, with the frame that the call asks for, or fails for the first reason that applies. -/
theorem enter?_cases (m : Machine) (hroutine : routine < UInt32.size) (arguments : List UInt16)
    (returnStore : Option UInt8) :
    (∃ declared frame, m.CanEnter routine declared ∧
      frame.BuiltFor m routine declared arguments m.pc returnStore ∧
      m.enter? routine arguments returnStore =
        .ok { m with
          calls := ⟨frame, m.calls.current :: m.calls.callers⟩
          pc := UInt32.ofNat (m.codeStart routine declared) }) ∨
    ∃ fault, m.EntryFault routine fault ∧ m.enter? routine arguments returnStore = .error fault := by
  unfold enter? frameAt
  by_cases hsize : m.memory.size ≤ routine
  · rw [Memory.readByte_of_size_le hsize]
    exact .inr ⟨_, .outside hsize, rfl⟩
  · obtain ⟨declared, hbyte⟩ := Memory.exists_readByte (Nat.not_le.1 hsize)
    have hheader := Memory.readByte_eq_ok_iff.1 hbyte
    rw [hbyte, ok_bind]
    by_cases hdeclared : localLimit < declared.toNat
    · refine .inr ⟨_, .declared hheader hdeclared, ?_⟩
      rw [Frame.create, if_pos hdeclared, UInt32.toNat_ofNat_of_lt' hroutine]
      rfl
    · have hle : declared.toNat ≤ 15 := Nat.not_lt.1 hdeclared
      obtain ⟨frame, hframe⟩ : ∃ frame, Frame.create (UInt32.ofNat routine) m.pc returnStore declared = .ok frame :=
        ⟨_, Frame.create_eq_ok_iff.2 ⟨hle, rfl⟩⟩
      rw [hframe, ok_bind]
      rcases routineStart_eq declared (Nat.not_le.1 hsize) with
        ⟨initial, hstart, hwords, hnone⟩ | ⟨hversion, hshort, hstart⟩
      · rw [hstart]
        have hinitial := fun h => (hwords h).1
        by_cases hdepth : depthLimit ≤ m.calls.depth
        · refine .inr ⟨_, .depth hheader hle hinitial hdepth, ?_⟩
          simp only [pure, Except.pure, ok_bind, CallStack.push, if_pos hdepth]
          rfl
        · refine .inl ⟨declared, frame.setLocals initial arguments, ⟨hheader, hle, hinitial, Nat.not_le.1 hdepth⟩, ?_, ?_⟩
          · exact builtFor_setLocals hroutine hframe (fun h => (hwords h).2) hnone
          · simp only [pure, Except.pure, ok_bind, CallStack.push, if_neg hdepth]
      · rw [hstart]
        exact .inr ⟨_, .initial hheader hle hversion hshort, rfl⟩

/-! ### The step of a call -/

/-- What is known of a step that calls the routine at a packed address, which is not 0. -/
structure CallStep (m : Machine) (call : Instruction) (packed : UInt16) (arguments : List UInt16) (routine : Nat) :
    Prop where
  routine_of_small : 1 ≤ m.version → m.version ≤ 3 → routine = packed.toNat * 2
  routine_of_middle : 4 ≤ m.version → m.version ≤ 7 → routine = packed.toNat * 4
  routine_of_other : m.version = 0 ∨ 8 ≤ m.version → routine = packed.toNat * 8
  succeeds_iff : m.step.result.isOk ↔ ∃ declared, m.CanEnter routine declared
  /-- A frame stands on those there were, less the operands that were on the stack. -/
  entered : m.step.result.isOk → ∃ declared number frame, m.CanEnter routine declared ∧ call.store = some number ∧
    frame.BuiltFor m routine declared arguments call.nextPc (some number) ∧ m.step.result = .ok .running ∧
    m.step.machine.memory = m.memory ∧
    m.step.machine.calls.frames = (m.calls.discard (call.operands.count (.var .stack))).frames ++ [frame] ∧
    m.step.machine.pc.toNat = routine + 1 + if m.version ≤ 4 then 2 * declared.toNat else 0
  failed : ∀ failure, m.step.result = .error failure → m.EntryFault routine failure.cause ∧
    m.step.machine.memory = m.memory ∧ m.step.machine.calls = m.calls.discard (call.operands.count (.var .stack))

section Unpacking

variable {packed : UInt16}

theorem unpack_of_small (h1 : 1 ≤ m.version) (h3 : m.version ≤ 3) : m.unpack packed = packed.toNat * 2 := by
  rw [unpack, packingUnit, if_pos ⟨h1, h3⟩]

theorem unpack_of_middle (h4 : 4 ≤ m.version) (h7 : m.version ≤ 7) : m.unpack packed = packed.toNat * 4 := by
  have hnot : ¬(1 ≤ m.version ∧ m.version ≤ 3) := fun hsmall => absurd (UInt8.le_trans h4 hsmall.2) (by decide)
  rw [unpack, packingUnit, if_neg hnot, if_pos ⟨h4, h7⟩]

theorem unpack_of_other (h : m.version = 0 ∨ 8 ≤ m.version) : m.unpack packed = packed.toNat * 8 := by
  have hsmall : ¬(1 ≤ m.version ∧ m.version ≤ 3) := by
    rintro ⟨h1, h3⟩
    rcases h with h0 | h8
    · exact absurd (h0 ▸ h1) (by decide)
    · exact absurd (UInt8.le_trans h8 h3) (by decide)
  have hmiddle : ¬(4 ≤ m.version ∧ m.version ≤ 7) := by
    rintro ⟨h4, h7⟩
    rcases h with h0 | h8
    · exact absurd (h0 ▸ h4) (by decide)
    · exact absurd (UInt8.le_trans h8 h7) (by decide)
  rw [unpack, packingUnit, if_neg hsmall, if_neg hmiddle]

end Unpacking

theorem codeStart_lt (m : Machine) (packed : UInt16) (declared : UInt8) :
    m.codeStart (m.unpack packed) declared < UInt32.size := by
  have hroutine := Checked.unpack_lt m packed
  have hdeclared := declared.toNat_lt
  have hsize : UInt32.size = 4294967296 := rfl
  unfold codeStart
  split <;> omega

section Operands

variable {pc : UInt32} {n : Nat}

/-- What stands before a call does not depend on the operands that it takes off the stack. -/
theorem CanEnter.before (h : { m with pc, calls := m.calls.discard n }.CanEnter routine declared) :
    m.CanEnter routine declared :=
  ⟨h.header, h.declared_le, h.initial, h.depth⟩

theorem EntryFault.before (h : { m with pc, calls := m.calls.discard n }.EntryFault routine fault) :
    m.EntryFault routine fault := by
  cases h with
  | outside h => exact .outside h
  | declared header h => exact .declared header h
  | initial header declared_le version h => exact .initial header declared_le version h
  | depth header declared_le initial h => exact .depth header declared_le initial h

end Operands

theorem enter_of_ok {m' : Machine} (h : m.enter? routine arguments returnStore = .ok m') :
    m.enter routine arguments returnStore = ⟨.ok (), m', [m'.entry]⟩ := by
  rw [enter, h]

theorem enter_of_error (h : m.enter? routine arguments returnStore = .error fault) :
    m.enter routine arguments returnStore = ⟨.error fault, m, []⟩ := by
  rw [enter, h]

/-- A call enters a routine that can be entered, and else fails before it has done more than take its operands. -/
theorem Performs.call_cases {call : Instruction} {packed : UInt16} {caller : Machine}
    (h : m.Performs call .call (packed :: arguments) caller) (hpacked : packed ≠ 0) :
    (∃ declared frame, m.CanEnter (m.unpack packed) declared ∧
      frame.BuiltFor m (m.unpack packed) declared arguments call.nextPc call.store ∧ m.step.result = .ok .running ∧
      m.step.machine = { caller with
        calls := ⟨frame, caller.calls.current :: caller.calls.callers⟩
        pc := UInt32.ofNat (m.codeStart (m.unpack packed) declared)
        executed := m.executed + 1 }) ∨
    ∃ fault, m.EntryFault (m.unpack packed) fault ∧ m.step.result = .error (m.failure fault) ∧
      m.step.machine = { caller with pc := m.pc } := by
  have hlt : m.unpack packed < UInt32.size := Nat.lt_trans (Checked.unpack_lt m packed) (by decide)
  have happly : (Effect.of caller .call call (packed :: arguments)).apply caller =
      caller.enter (caller.unpack packed) arguments call.store := by
    rw [Effect.of_call caller call hpacked, Effect.apply]
  obtain rfl := h.machine_eq_discard
  rcases enter?_cases { m with pc := call.nextPc, calls := m.calls.discard (call.operands.count (.var .stack)) } hlt
    arguments call.store with ⟨declared, frame, hcan, hframe, hm⟩ | ⟨fault, hfault, hm⟩
  · left
    have hs := h.step_ok (happly.trans (enter_of_ok hm))
    refine ⟨declared, frame, hcan.before, ?_, congrArg Report.result hs, congrArg Report.machine hs⟩
    exact ⟨hframe.routine_eq, hframe.returnPc_eq, hframe.returnStore_eq, hframe.declared_eq, hframe.argument,
      hframe.initial, hframe.zero, hframe.undeclared, hframe.stack⟩
  · right
    have hs := h.step_error (happly.trans (enter_of_error hm))
    exact ⟨fault, hfault.before, congrArg Report.result hs, congrArg Report.machine hs⟩

/-- **A call builds exactly the frame that it asks for, or fails and builds none.**  It succeeds if and only if the routine's
address lies in the image, the byte there declares at most 15 locals, the initial values that follow it up to version 4
lie in the image, and fewer than 1024 frames are there.  Otherwise it fails for the first of these reasons that applies. -/
theorem call_builds_frame {call : Instruction} {packed : UInt16} {caller : Machine}
    (h : m.Performs call .call (packed :: arguments) caller) (hpacked : packed ≠ 0) :
    m.CallStep call packed arguments (m.unpack packed) := by
  have hcases := h.call_cases hpacked
  obtain rfl := h.machine_eq_discard
  refine ⟨unpack_of_small, unpack_of_middle, unpack_of_other, ?_, fun hok => ?_, fun failure hfailed => ?_⟩
  · rcases hcases with ⟨declared, frame, hcan, -, hresult, -⟩ | ⟨fault, hfault, hresult, -⟩
    · rw [hresult]
      exact ⟨fun _ => ⟨declared, hcan⟩, fun _ => rfl⟩
    · rw [hresult]
      exact ⟨nofun, fun ⟨declared, hcan⟩ => absurd hcan hfault.not_canEnter⟩
  · rcases hcases with ⟨declared, frame, hcan, hframe, hresult, hm⟩ | ⟨fault, -, hresult, -⟩
    · -- a call is fetched with the number of the variable that takes the result
      obtain ⟨number, hnumber⟩ := Option.isSome_iff_exists.1 h.suits.store
      rw [hnumber] at hframe
      refine ⟨declared, number, frame, hcan, hnumber, hframe, hresult, ?_, ?_, ?_⟩
      · rw [hm]
      · rw [hm]
        simp [CallStack.frames]
      · rw [hm]
        exact UInt32.toNat_ofNat_of_lt' (m.codeStart_lt packed declared)
    · rw [hresult] at hok
      cases hok
  · rcases hcases with ⟨declared, frame, -, -, hresult, -⟩ | ⟨fault, hfault, hresult, hm⟩
    · rw [hresult] at hfailed
      cases hfailed
    · rw [hresult] at hfailed
      cases hfailed
      rw [hm]
      exact ⟨hfault, rfl, rfl⟩

/-- A story that pushes 7 and calls a routine with that value and 34.  The routine declares three locals, the initial values
of which are the last bytes of the image. -/
def visitor : Array UInt8 :=
  #[3, 0, 0, 1, 0, 34, 0, 34, 0, 34, 0, 34, 0, 16, 0, 34, 0, 0, 48, 48, 48, 48, 48, 48, 0, 34, 0, 0, 0, 0, 0, 0, 0, 0,
    0xE8, 0x7F, 0x07, 0xE0, 0x27, 0x00, 0x16, 0x00, 0x22, 0x05, 0x03, 0x00, 0x0A, 0x00, 0x0B, 0x00, 0x0C]

theorem visitor_builds_frame :
    ∃ m call caller, load visitor = .ok m ∧ (m.after 1).Performs call .call [22, 7, 34] caller ∧
      (m.after 1).CallStep call 22 [7, 34] 44 ∧ (m.after 1).CanEnter 44 3 ∧
      (m.after 2).calls.current.locals.toList.take 4 = [7, 34, 12, 0] ∧ (m.after 2).calls.depth = 2 :=
  ⟨_, _, _, rfl, ⟨rfl, by decide, rfl⟩, call_builds_frame ⟨rfl, by decide, rfl⟩ (by decide),
    ⟨rfl, by decide, by decide, by decide⟩, rfl, rfl⟩

end Machine

end ZMachine
