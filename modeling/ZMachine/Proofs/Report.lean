import ZMachine.Step

/-!
# Reports of actions

The report of an action is what it comes to when its log is left aside: how it ended, the machine it left, and the events
in their order.

* `Action.report_bind`: how the report of a sequence is made from the reports of its parts;
* `Machine.write?`, `Machine.assign?`, `Machine.valueOf`: access to variables as plain functions of the machine;
* `Action.report_writeVariable`, `Action.report_assignVariable`, `Action.report_loadVariable`: the actions are these
  functions.  A write changes the machine as a whole or not at all.
-/

namespace ZMachine

variable {ε α β : Type}

/-! ### Computations that may fail -/

section Except

@[simp]
theorem ok_bind (a : α) (f : α → Except ε β) : (Except.ok a >>= f) = f a := rfl

@[simp]
theorem error_bind (fault : ε) (f : α → Except ε β) : (Except.error fault >>= f) = .error fault := rfl

@[simp]
theorem map_ok (f : α → β) (a : α) : (Except.ok a : Except ε α).map f = .ok (f a) := rfl

@[simp]
theorem map_error (f : α → β) (fault : ε) : (Except.error fault : Except ε α).map f = .error fault := rfl

theorem bind_eq_ok_iff {x : Except ε α} {f : α → Except ε β} {b : β} :
    (x >>= f) = .ok b ↔ ∃ a, x = .ok a ∧ f a = .ok b := by
  cases x <;> simp

theorem bind_eq_error_iff {x : Except ε α} {f : α → Except ε β} {fault : ε} :
    (x >>= f) = .error fault ↔ x = .error fault ∨ ∃ a, x = .ok a ∧ f a = .error fault := by
  cases x <;> simp

theorem map_eq_ok_iff {f : α → β} {x : Except ε α} {b : β} : x.map f = .ok b ↔ ∃ a, x = .ok a ∧ f a = b := by
  cases x <;> simp

theorem map_eq_error_iff {f : α → β} {x : Except ε α} {fault : ε} : x.map f = .error fault ↔ x = .error fault := by
  cases x <;> simp

end Except

/-! ### Reports -/

/-- What an action comes to, its log left aside. -/
structure Report (ε α : Type) where
  result : Except ε α
  machine : Machine
  events : List Event

/-- The report of an outcome. -/
def Outcome.report (o : Outcome ε α) : Report ε α :=
  ⟨o.result, o.machine, o.events⟩

/-- The report of an action on a machine. -/
def Action.report (x : Action α) (m : Machine) : Report Fault α :=
  (x.run m).report

namespace Report

/-- Go on after a report; a fault ends the sequence. -/
def andThen : Report ε α → (α → Machine → Report ε β) → Report ε β
  | ⟨.ok a, m, events⟩, f => { f a m with events := events ++ (f a m).events }
  | ⟨.error fault, m, events⟩, _ => ⟨.error fault, m, events⟩

/-- The report of a change that is made as a whole and followed by events, or not made at all. -/
def attempt (m : Machine) (events : List Event) : Except Fault Machine → Report Fault Unit
  | .ok m' => ⟨.ok (), m', events⟩
  | .error fault => ⟨.error fault, m, []⟩

@[simp]
theorem andThen_ok (a : α) (m : Machine) (events : List Event) (f : α → Machine → Report ε β) :
    andThen ⟨.ok a, m, events⟩ f = { f a m with events := events ++ (f a m).events } := rfl

theorem andThen_ok_nil (a : α) (m : Machine) (f : α → Machine → Report ε β) : andThen ⟨.ok a, m, []⟩ f = f a m := rfl

@[simp]
theorem andThen_error (fault : ε) (m : Machine) (events : List Event) (f : α → Machine → Report ε β) :
    andThen ⟨.error fault, m, events⟩ f = ⟨.error fault, m, events⟩ := rfl

@[simp]
theorem attempt_ok (m m' : Machine) (events : List Event) : attempt m events (.ok m') = ⟨.ok (), m', events⟩ := rfl

@[simp]
theorem attempt_error (m : Machine) (events : List Event) (fault : Fault) :
    attempt m events (.error fault) = ⟨.error fault, m, []⟩ := rfl

/-- What holds before an attempt and after the change holds of the machine that the attempt leaves. -/
theorem attempt_machine {P : Machine → Prop} {m : Machine} {events : List Event} {change : Except Fault Machine}
    (before : P m) (after : ∀ m', change = .ok m' → P m') : P (attempt m events change).machine := by
  cases change with
  | error fault => exact before
  | ok m' => exact after m' rfl

theorem attempt_eq_ok {m m' : Machine} {events events' : List Event} {change : Except Fault Machine}
    (h : attempt m events change = ⟨.ok (), m', events'⟩) : change = .ok m' ∧ events' = events := by
  cases change with
  | error fault => simp at h
  | ok m₁ => simp_all

theorem attempt_eq_error {m m' : Machine} {events events' : List Event} {change : Except Fault Machine} {fault : Fault}
    (h : attempt m events change = ⟨.error fault, m', events'⟩) : change = .error fault ∧ m' = m ∧ events' = [] := by
  cases change with
  | error fault' => simp_all
  | ok m₁ => simp at h

end Report

/-! ### Sequences and the simplest actions -/

namespace Action

theorem report_bind (x : Action α) (f : α → Action β) (m : Machine) :
    (x >>= f).report m = (x.report m).andThen fun a m' => (f a).report m' := by
  unfold report
  rcases h : x.run m with ⟨fault | a, m', notes⟩
  · rw [run_bind_error h]
    rfl
  · rw [run_bind_ok h]
    simp [Outcome.report, Outcome.after, Outcome.events]

@[simp]
theorem report_pure (a : α) (m : Machine) : (pure a : Action α).report m = ⟨.ok a, m, []⟩ := rfl

@[simp]
theorem report_liftM (e : Except Fault α) (m : Machine) : (liftM e : Action α).report m = ⟨e, m, []⟩ := rfl

@[simp]
theorem report_machine (m : Machine) : machine.report m = ⟨.ok m, m, []⟩ := rfl

@[simp]
theorem report_update (f : Machine → Machine) (m : Machine) : (update f).report m = ⟨.ok (), f m, []⟩ := rfl

@[simp]
theorem report_log (d : Diagnostic) (m : Machine) : (log d).report m = ⟨.ok (), m, []⟩ := rfl

@[simp]
theorem report_logAll (ds : List Diagnostic) (m : Machine) : (logAll ds).report m = ⟨.ok (), m, []⟩ := by
  simp [report, Outcome.report, logAll, Outcome.events, List.filterMap_map, Function.comp_def, Note.event?]

@[simp]
theorem report_emit (e : Event) (m : Machine) : (emit e).report m = ⟨.ok (), m, [e]⟩ := rfl

@[simp]
theorem report_setPc (pc : UInt32) (m : Machine) : (setPc pc).report m = ⟨.ok (), { m with pc }, []⟩ := rfl

end Action

/-! ### Access to variables -/

namespace Machine

/-- The machine with another current frame. -/
def withCurrent (m : Machine) (frame : Frame) : Machine :=
  { m with calls := { m.calls with current := frame } }

/-- The value that a variable shows when it is named by a value: the top of the stack stays where it is. -/
def valueOf (m : Machine) : Variable → Except Fault UInt16
  | .stack => m.calls.current.peek
  | .localSlot slot => m.calls.current.readLocal slot
  | .globalCell index => m.memory.readWord (m.globalAddress index)

/-- The machine with a result in a variable: the stack is pushed. -/
def write? (m : Machine) (target : Variable) (value : UInt16) : Except Fault Machine :=
  match target with
  | .stack => (m.calls.current.push value).map m.withCurrent
  | .localSlot slot => (m.calls.current.writeLocal slot value).map m.withCurrent
  | .globalCell index => (m.memory.writeWord (m.globalAddress index) value).map fun memory => { m with memory }

/-- The machine with a value assigned to a variable: the top of the stack is replaced. -/
def assign? (m : Machine) (target : Variable) (value : UInt16) : Except Fault Machine :=
  match target with
  | .stack => (m.calls.current.replaceTop value).map m.withCurrent
  | .localSlot slot => (m.calls.current.writeLocal slot value).map m.withCurrent
  | .globalCell index => (m.memory.writeWord (m.globalAddress index) value).map fun memory => { m with memory }

/-- A variable of a machine has been set, in one of the four ways there are. -/
inductive Sets (m : Machine) (value : UInt16) : Machine → Prop
  | push {frame : Frame} (h : m.calls.current.push value = .ok frame) : Sets m value (m.withCurrent frame)
  | replaceTop {frame : Frame} (h : m.calls.current.replaceTop value = .ok frame) : Sets m value (m.withCurrent frame)
  | writeLocal {slot : UInt8} {frame : Frame} (h : m.calls.current.writeLocal slot value = .ok frame) :
      Sets m value (m.withCurrent frame)
  | writeGlobal {index : UInt8} {memory : Memory} (h : m.memory.writeWord (m.globalAddress index) value = .ok memory) :
      Sets m value { m with memory }

variable {m m' : Machine} {target : Variable} {value : UInt16}

theorem sets_of_write? (h : m.write? target value = .ok m') : m.Sets value m' := by
  cases target with
  | stack =>
    obtain ⟨frame, hf, rfl⟩ := map_eq_ok_iff.1 h
    exact .push hf
  | localSlot slot =>
    obtain ⟨frame, hf, rfl⟩ := map_eq_ok_iff.1 h
    exact .writeLocal hf
  | globalCell index =>
    obtain ⟨memory, hm, rfl⟩ := map_eq_ok_iff.1 h
    exact .writeGlobal hm

theorem sets_of_assign? (h : m.assign? target value = .ok m') : m.Sets value m' := by
  cases target with
  | stack =>
    obtain ⟨frame, hf, rfl⟩ := map_eq_ok_iff.1 h
    exact .replaceTop hf
  | localSlot slot =>
    obtain ⟨frame, hf, rfl⟩ := map_eq_ok_iff.1 h
    exact .writeLocal hf
  | globalCell index =>
    obtain ⟨memory, hm, rfl⟩ := map_eq_ok_iff.1 h
    exact .writeGlobal hm

end Machine

namespace Action

open Report

/-- A change that is checked first is made as a whole or not at all. -/
theorem report_checked (check : Machine → Except Fault α) (change : α → Machine → Machine) (m : Machine) :
    (machine >>= fun m => liftM (check m) >>= fun a => update (change a) : Action Unit).report m =
      attempt m [] ((check m).map fun a => change a m) := by
  simp only [report_bind, report_machine, report_liftM, andThen_ok, List.nil_append]
  cases check m with
  | error fault => rfl
  | ok a => rfl

theorem report_writeByte (address : Nat) (byte : UInt8) (m : Machine) :
    (writeByte address byte).report m =
      attempt m [] ((m.memory.writeByte address byte).map fun memory => { m with memory }) := by
  refine (report_checked (fun m => m.memory.checkWritable address) _ m).trans ?_
  unfold Memory.writeByte
  cases m.memory.checkWritable address <;> rfl

theorem report_writeWord (address : Nat) (word : UInt16) (m : Machine) :
    (writeWord address word).report m =
      attempt m [] ((m.memory.writeWord address word).map fun memory => { m with memory }) := by
  refine (report_checked (fun m => m.memory.checkWritableWord address) _ m).trans ?_
  unfold Memory.writeWord
  cases m.memory.checkWritableWord address <;> rfl

theorem report_onFrame (f : Frame → Except Fault Frame) (m : Machine) :
    (onFrame f).report m = attempt m [] ((f m.calls.current).map m.withCurrent) :=
  report_checked (fun m => f m.calls.current) (fun frame m => m.withCurrent frame) m

theorem report_writeVariable (target : Variable) (value : UInt16) (m : Machine) :
    (writeVariable target value).report m = attempt m [] (m.write? target value) := by
  cases target with
  | stack => exact report_onFrame (fun f => f.push value) m
  | localSlot slot => exact report_onFrame (fun f => f.writeLocal slot value) m
  | globalCell index => exact report_writeWord (m.globalAddress index) value m

theorem report_assignVariable (target : Variable) (value : UInt16) (m : Machine) :
    (assignVariable target value).report m = attempt m [] (m.assign? target value) := by
  cases target with
  | stack => exact report_onFrame (fun f => f.replaceTop value) m
  | localSlot slot => exact report_onFrame (fun f => f.writeLocal slot value) m
  | globalCell index => exact report_writeWord (m.globalAddress index) value m

theorem report_loadVariable (source : Variable) (m : Machine) :
    (loadVariable source).report m = ⟨m.valueOf source, m, []⟩ := by
  cases source <;> rfl

end Action

end ZMachine
