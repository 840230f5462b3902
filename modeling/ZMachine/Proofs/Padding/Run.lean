import ZMachine.Proofs.Padding.Access
import ZMachine.Proofs.Stages

/-!
# Padded stories

A story with bytes after its end runs as it does without them.  Nothing that an instruction does depends on where the image
ends, unless it runs past the end.

* `Machine.pad`: a machine with bytes after the end of its image;
* `Report.Approx`: what an action does with a machine and with the padded machine is the same, unless past the end;
* `Effect.approx_apply`, `Action.approx_executeNext`: effects and instructions;
* `Machine.step_pad`: steps;
* `Machine.padding_unnoticed`: runs.
-/

namespace ZMachine

namespace Machine

/-- The machine with bytes after the end of its image. -/
def pad (m : Machine) (padding : Array UInt8) : Machine :=
  { m with memory := m.memory.pad padding }

theorem calls_pad (m : Machine) (padding : Array UInt8) : (m.pad padding).calls = m.calls := rfl

theorem objects_pad (m : Machine) (padding : Array UInt8) : (m.pad padding).objects = m.objects := rfl

end Machine

namespace Report

variable {ε α β : Type}

/-- The report with bytes after the end of the machine's image. -/
def pad (r : Report ε α) (padding : Array UInt8) : Report ε α :=
  { r with machine := r.machine.pad padding }

/-- The second report is the first on the padded image, unless the first has run past the end. -/
def Approx (padding : Array UInt8) (r r' : Report Fault α) : Prop :=
  r' = r.pad padding ∨ ∃ fault, r.result = .error fault ∧ fault.isPastEnd

namespace Approx

variable {padding : Array UInt8} {m : Machine} {events : List Event}

theorem refl (r : Report Fault α) : Approx padding r (r.pad padding) := .inl rfl

/-- A computation that leaves the machine alone. -/
theorem ofExcept {x y : Except Fault α} (h : ZMachine.Approx x y) :
    Approx padding ⟨x, m, events⟩ ⟨y, m.pad padding, events⟩ := by
  rcases h with rfl | ⟨fault, rfl, hfault⟩
  · exact .refl _
  · exact .inr ⟨fault, rfl, hfault⟩

theorem attempt {change change' : Except Fault Machine}
    (h : ZMachine.Approx (change.map (Machine.pad · padding)) change') :
    Approx padding (Report.attempt m events change) (Report.attempt (m.pad padding) events change') := by
  rcases h with rfl | ⟨fault, hchange, hfault⟩
  · left
    cases change <;> rfl
  · rw [map_eq_error_iff.1 hchange]
    exact .inr ⟨fault, rfl, hfault⟩

theorem andThen {r r' : Report Fault α} {f : α → Machine → Report Fault β} (h : Approx padding r r')
    (hf : ∀ a m, Approx padding (f a m) (f a (m.pad padding))) : Approx padding (r.andThen f) (r'.andThen f) := by
  rcases r with ⟨fault | a, m, events⟩
  · rcases h with rfl | ⟨fault', hr, hfault⟩
    · exact .refl _
    · exact .inr ⟨fault', by simpa using hr, hfault⟩
  · rcases h with rfl | ⟨fault, hr, -⟩
    · rcases hf a m with h | ⟨fault, hr, hfault⟩
      · left
        simp only [pad, andThen_ok, h]
      · exact .inr ⟨fault, hr, hfault⟩
    · cases hr

end Approx

end Report

/-! ### Variables, properties and routines -/

namespace Machine

variable (m : Machine) (padding : Array UInt8)

theorem approx_valueOf (source : Variable) : Approx (m.valueOf source) ((m.pad padding).valueOf source) := by
  cases source with
  | stack | localSlot slot => exact .refl _
  | globalCell index => exact m.memory.approx_readWord padding _

/-- A change of the current frame has nothing to do with the image. -/
theorem approx_withCurrent (frame : Except Fault Frame) :
    Approx ((frame.map m.withCurrent).map (pad · padding)) (frame.map (m.pad padding).withCurrent) := by
  left
  cases frame <;> rfl

theorem approx_withMemory {memory memory' : Except Fault Memory}
    (h : Approx (memory.map (Memory.pad · padding)) memory') :
    Approx ((memory.map fun memory => { m with memory }).map (pad · padding))
      (memory'.map fun memory => { m.pad padding with memory }) := by
  rcases h with rfl | ⟨fault, hmemory, hfault⟩
  · left
    cases memory <;> rfl
  · rw [map_eq_error_iff.1 hmemory]
    exact .pastEnd hfault

theorem approx_write? (target : Variable) (value : UInt16) :
    Approx ((m.write? target value).map (pad · padding)) ((m.pad padding).write? target value) := by
  cases target with
  | stack | localSlot slot => exact m.approx_withCurrent padding _
  | globalCell index => exact m.approx_withMemory padding (m.memory.approx_writeWord padding _ value)

theorem approx_assign? (target : Variable) (value : UInt16) :
    Approx ((m.assign? target value).map (pad · padding)) ((m.pad padding).assign? target value) := by
  cases target with
  | stack | localSlot slot => exact m.approx_withCurrent padding _
  | globalCell index => exact m.approx_withMemory padding (m.memory.approx_writeWord padding _ value)

theorem approx_put? (object : UInt16) (property : UInt8) (value : UInt16) :
    Approx ((m.put? object property value).map (pad · padding)) ((m.pad padding).put? object property value) := by
  unfold put?
  rw [objects_pad]
  split
  · next t _ => exact m.approx_withMemory padding (t.approx_put m.memory padding object property value)
  · exact .refl _

theorem approx_frameAt (routine : Nat) (arguments : List UInt16) (returnStore : Option UInt8) :
    Approx (m.frameAt routine arguments returnStore) ((m.pad padding).frameAt routine arguments returnStore) := by
  refine .bind (m.memory.approx_readByte padding _) fun declared _ => .bind (.refl _) fun frame _ => ?_
  refine .bind (.ite ?_ (.refl _)) fun _ _ => .refl _
  exact .bind (m.memory.approx_readWords padding _ _) fun _ _ => .refl _

theorem approx_enter? (routine : Nat) (arguments : List UInt16) (returnStore : Option UInt8) :
    Approx ((m.enter? routine arguments returnStore).map (pad · padding))
      ((m.pad padding).enter? routine arguments returnStore) := by
  rw [enter?, map_bind]
  refine .bind (m.approx_frameAt padding routine arguments returnStore) fun (frame, start) _ => ?_
  dsimp only
  rw [map_bind]
  exact .bind (.refl _) fun calls _ => .refl _

theorem approx_enter (routine : Nat) (arguments : List UInt16) (returnStore : Option UInt8) :
    Report.Approx padding (m.enter routine arguments returnStore)
      ((m.pad padding).enter routine arguments returnStore) := by
  unfold enter
  rcases m.approx_enter? padding routine arguments returnStore with h | ⟨fault, hm, hfault⟩
  · left
    rw [h]
    cases m.enter? routine arguments returnStore <;> rfl
  · rw [map_eq_error_iff.1 hm]
    exact .inr ⟨fault, rfl, hfault⟩

theorem pop_pad : (m.pad padding).pop = m.pop.pad padding := by
  unfold pop
  rw [calls_pad]
  cases m.calls.current.pop <;> rfl

theorem caller?_pad : (m.pad padding).caller? = m.caller?.map (pad · padding) := by
  unfold caller?
  rw [calls_pad]
  cases m.calls.callers <;> rfl

theorem approx_leave (value : UInt16) : Report.Approx padding (m.leave value) ((m.pad padding).leave value) := by
  unfold leave
  rw [caller?_pad, calls_pad]
  cases m.caller? with
  | none => exact .refl _
  | some caller =>
    cases m.calls.current.returnStore with
    | none => exact .refl _
    | some number => exact .attempt (caller.approx_write? padding (.ofNumber number) value)

end Machine

/-! ### Effects -/

namespace Effect

variable (m : Machine) (padding : Array UInt8)

theorem approx_apply (e : Effect) : Report.Approx padding (e.apply m) (e.apply (m.pad padding)) := by
  cases e with
  | nothing | jump pc | fail fault => exact .refl _
  | push value | store target value => exact .attempt (m.approx_write? padding _ value)
  | assign target value => exact .attempt (m.approx_assign? padding target value)
  | writeByte address byte =>
    exact .attempt (m.approx_withMemory padding (m.memory.approx_writeByte padding address byte))
  | writeWord address word =>
    exact .attempt (m.approx_withMemory padding (m.memory.approx_writeWord padding address word))
  | putProperty object property value => exact .attempt (m.approx_put? padding object property value)
  | enter routine arguments returnStore => exact m.approx_enter padding routine arguments returnStore
  | leave value => exact m.approx_leave padding value
  | pull target =>
    refine .andThen (.inl (m.pop_pad padding)) fun value m => ?_
    exact .attempt (m.approx_assign? padding target value)
  | leavePopped => exact .andThen (.inl (m.pop_pad padding)) fun value m => m.approx_leave padding value

/-- A result that is read past the end fails the operation. -/
theorem result_approx (i : Instruction) {x y : Except Fault UInt16} (h : Approx x y) :
    result i y = result i x ∨ ∃ fault, result i x = .fail fault ∧ fault.isPastEnd := by
  rcases h with rfl | ⟨fault, rfl, hfault⟩
  · exact .inl rfl
  · exact .inr ⟨fault, rfl, hfault⟩

/-- The effect of an operation is the same on the padded image, unless it reads past the end to find it out. -/
theorem of_pad (op : Operation) (i : Instruction) (values : List UInt16) :
    Effect.of (m.pad padding) op i values = Effect.of m op i values ∨
      ∃ fault, Effect.of m op i values = .fail fault ∧ fault.isPastEnd := by
  cases op with
  | load =>
    rcases values with _ | ⟨name, rest⟩
    · exact .inl rfl
    · exact result_approx i (m.approx_valueOf padding _)
  | loadw =>
    rcases values with _ | ⟨array, _ | ⟨index, rest⟩⟩
    · exact .inl rfl
    · exact .inl rfl
    · exact result_approx i (m.memory.approx_readWord padding _)
  | loadb =>
    rcases values with _ | ⟨array, _ | ⟨index, rest⟩⟩
    · exact .inl rfl
    · exact .inl rfl
    · exact result_approx i (.map (m.memory.approx_readByte padding _) _)
  | _ =>
    -- no other operation looks at the image to find out what to do
    rcases values with _ | ⟨a, _ | ⟨b, _ | ⟨c, rest⟩⟩⟩ <;> exact .inl rfl

theorem approx_of (op : Operation) (i : Instruction) (values : List UInt16) :
    Report.Approx padding ((Effect.of m op i values).apply m)
      ((Effect.of (m.pad padding) op i values).apply (m.pad padding)) := by
  rcases of_pad m padding op i values with h | ⟨fault, h, hfault⟩
  · rw [h]
    exact approx_apply m padding _
  · rw [h]
    exact .inr ⟨fault, rfl, hfault⟩

end Effect

/-! ### Steps -/

namespace Action

variable (m : Machine) (padding : Array UInt8)

theorem approx_bind {α β : Type} {x : Action α} {f : α → Action β}
    (hx : Report.Approx padding (x.report m) (x.report (m.pad padding)))
    (hf : ∀ a m, Report.Approx padding ((f a).report m) ((f a).report (m.pad padding))) :
    Report.Approx padding ((x >>= f).report m) ((x >>= f).report (m.pad padding)) := by
  rw [report_bind, report_bind]
  exact .andThen hx hf

theorem approx_operandValue (operand : Operand) :
    Report.Approx padding ((operandValue operand).report m) ((operandValue operand).report (m.pad padding)) := by
  cases operand with
  | large value | small value => exact .refl _
  | var source =>
    cases source with
    | stack =>
      show Report.Approx padding (pop.report m) (pop.report (m.pad padding))
      rw [report_pop, report_pop]
      exact .inl (m.pop_pad padding)
    | localSlot slot => exact .ofExcept (m.approx_valueOf padding (.localSlot slot))
    | globalCell index => exact .ofExcept (m.approx_valueOf padding (.globalCell index))

theorem approx_operandValues (operands : List Operand) :
    Report.Approx padding ((operandValues operands).report m) ((operandValues operands).report (m.pad padding)) := by
  induction operands generalizing m with
  | nil => exact .refl _
  | cons operand operands ih =>
    refine approx_bind m padding (approx_operandValue m padding operand) fun value m => ?_
    exact approx_bind m padding (ih m) fun values m => .refl _

theorem approx_execute (i : Instruction) (op : Operation) :
    Report.Approx padding ((execute i op).report m) ((execute i op).report (m.pad padding)) := by
  unfold execute
  split
  · exact .refl _
  · refine approx_bind m padding (.refl _) fun _ m => ?_
    refine approx_bind m padding (approx_operandValues m padding i.operands) fun values m => ?_
    refine approx_bind m padding (.refl _) fun _ m => approx_bind m padding (.refl _) fun _ m => ?_
    refine approx_bind m padding ?_ fun _ m => .refl _
    rw [report_perform, report_perform]
    exact Effect.approx_of m padding op i values

theorem approx_executeNext :
    Report.Approx padding (executeNext.report m) (executeNext.report (m.pad padding)) := by
  refine approx_bind m padding ?_ fun (i, op) m => approx_execute m padding i op
  rw [report_fetch, report_fetch]
  exact .ofExcept (Instruction.approx_fetch m.memory padding m.pc.toNat)

end Action

namespace Machine

variable {m : Machine}

/-- A step on the padded image is the step on the image, unless that has run past the end. -/
theorem step_pad (m : Machine) (padding : Array UInt8) :
    (m.pad padding).step.report = m.step.report.pad padding ∨
      ∃ failure, m.step.result = .error failure ∧ failure.cause.isPastEnd := by
  rcases hr : Action.executeNext.report m with ⟨fault | progress, m', events⟩
  · have hstep := step_of_error hr
    rcases Action.approx_executeNext m padding with h | ⟨fault', hfault', hpast⟩
    · left
      rw [hr] at h
      rw [hstep, step_of_error h]
      rfl
    · right
      rw [hr] at hfault'
      cases hfault'
      exact ⟨_, congrArg Report.result hstep, hpast⟩
  · rcases Action.approx_executeNext m padding with h | ⟨fault', hfault', -⟩
    · left
      rw [hr] at h
      rw [step_of_ok hr, step_of_ok h]
      rfl
    · rw [hr] at hfault'
      cases hfault'

/-! ### Runs -/

theorem load_pad {bytes : Array UInt8} (hload : load bytes = .ok m) (padding : Array UInt8) :
    load (bytes ++ padding) = .ok (m.pad padding) := by
  have happrox : Approx ((load bytes).map (pad · padding)) (load (bytes ++ padding)) := by
    rw [load, map_bind]
    refine .bindMap (Memory.approx_ofStory bytes padding) fun memory _ => ?_
    rw [map_bind]
    exact .bind (Header.approx_parse memory padding) fun header _ => .refl _
  rcases happrox with h | ⟨fault, h, -⟩
  · rw [h, hload]
    rfl
  · rw [hload] at h
    cases h

/-- A run of successful steps stays inside of the image. -/
theorem after_pad {n : Nat} (padding : Array UInt8) (hok : ∀ k, k < n → (m.after k).step.result.isOk) :
    (m.pad padding).after n = (m.after n).pad padding := by
  induction n with
  | zero => rfl
  | succ n ih =>
    have hafter := ih fun k hk => hok k (by omega)
    have hstep := hok n (by omega)
    show ((m.pad padding).after n).step.machine = (m.after n).step.machine.pad padding
    rw [hafter]
    rcases (m.after n).step_pad padding with h | ⟨failure, hfailure, -⟩
    · exact congrArg Report.machine h
    · rw [hfailure] at hstep
      cases hstep

/-- **Bytes after the end of a story are not noticed.**  Take any run of successful steps of a story.  With bytes appended
to it, the story can be loaded as well and takes the same steps: each comes to the same result with the same events, and
leaves the same machine but for the bytes after the end of the image.  And if the next step fails, but not by running past
the end, it fails in the same way. -/
theorem padding_unnoticed {bytes : Array UInt8} (hload : load bytes = .ok m) (padding : Array UInt8) {n : Nat}
    (hok : ∀ k, k < n → (m.after k).step.result.isOk) :
    ∃ m', load (bytes ++ padding) = .ok m' ∧
      (∀ k, k ≤ n → m'.after k = (m.after k).pad padding) ∧
      (∀ k, k < n → (m'.after k).step.result = (m.after k).step.result ∧
        (m'.after k).step.events = (m.after k).step.events) ∧
      ∀ failure, (m.after n).step.result = .error failure → failure.cause.isPastEnd = false →
        (m'.after n).step.result = .error failure := by
  have hafter : ∀ k, k ≤ n → (m.pad padding).after k = (m.after k).pad padding := by
    intro k hk
    exact after_pad padding fun j hj => hok j (by omega)
  refine ⟨m.pad padding, load_pad hload padding, hafter, ?_, ?_⟩
  · intro k hk
    rw [hafter k (by omega)]
    rcases (m.after k).step_pad padding with h | ⟨failure, hfailure, -⟩
    · exact ⟨congrArg Report.result h, congrArg Report.events h⟩
    · have hstep := hok k hk
      rw [hfailure] at hstep
      cases hstep
  · intro failure hfailure hinside
    rw [hafter n (Nat.le_refl n), ← hfailure]
    rcases (m.after n).step_pad padding with h | ⟨failure', hfailure', hpast⟩
    · exact congrArg Report.result h
    · rw [hfailure'] at hfailure
      cases hfailure
      rw [hinside] at hpast
      cases hpast

/-- A story that writes a byte and then, in its last four bytes, divides by zero. -/
def brim : Array UInt8 :=
  #[3, 0, 0, 1, 0, 36, 0, 36, 0, 36, 0, 36, 0, 16, 0, 36, 0, 0, 48, 48, 48, 48, 48, 48, 0, 36, 0, 0, 0, 0, 0, 0, 0, 0,
    0x00, 0x00, 0xE2, 0x57, 0x22, 0x00, 0x07, 0x17, 0x01, 0x00, 0x00]

theorem brim_padded :
    ∃ m m', load brim = .ok m ∧ load (brim ++ #[0xBA, 0xBA]) = .ok m' ∧
      (m.after 1).memory.readByte 34 = .ok 7 ∧ m'.after 1 = (m.after 1).pad #[0xBA, 0xBA] ∧
      (m.after 1).step.result = .error ⟨41, 1, 1, .divisionByZero⟩ ∧
      (m'.after 1).step.result = .error ⟨41, 1, 1, .divisionByZero⟩ := by
  obtain ⟨m', hload, hafter, -, hfailure⟩ :=
    padding_unnoticed (n := 1) (show load brim = _ from rfl) #[0xBA, 0xBA] (by decide)
  exact ⟨_, m', rfl, hload, rfl, hafter 1 (Nat.le_refl 1), rfl, hfailure _ rfl rfl⟩

end Machine

end ZMachine
