import ZMachine.Diagnostic
import ZMachine.Machine

/-!
# Actions on a machine

An action changes a machine, makes notes of what it does, and ends in a value or a fault.  A fault does not undo the
changes made before it: the outcome holds the machine as the action left it, and the notes made up to then.

* `Action.run_bind_ok`, `Action.run_bind_error`: how actions run one after the other;
* `Action.log`, `Action.emit`: making a note;
* `Action.writeByte`, `Action.writeWord`: writing to the story's memory.
-/

namespace ZMachine

/-- What an action notes: a message for the log, or an event for the observer. -/
inductive Note where
  | log (d : Diagnostic)
  | event (e : Event)

/-- The event of a note, if it is one. -/
def Note.event? : Note → Option Event
  | .log _ => none
  | .event e => some e

/-- How an action ended: with a value or an error, a machine, and notes in the order they were made. -/
structure Outcome (ε α : Type) where
  result : Except ε α
  machine : Machine
  notes : List Note

namespace Outcome

/-- The events among the notes. -/
def events {ε α : Type} (o : Outcome ε α) : List Event :=
  o.notes.filterMap Note.event?

/-- The outcome of an action that follows other notes. -/
def after {ε α : Type} (notes : List Note) (o : Outcome ε α) : Outcome ε α :=
  { o with notes := notes ++ o.notes }

end Outcome

/-- A change of a machine that makes notes and may fail. -/
structure Action (α : Type) where
  run : Machine → Outcome Fault α

namespace Action

variable {α β : Type}

/-- Run one action and then another; a fault ends the sequence. -/
def bind (x : Action α) (f : α → Action β) : Action β where
  run m :=
    match x.run m with
    | ⟨.error fault, m', notes⟩ => ⟨.error fault, m', notes⟩
    | ⟨.ok a, m', notes⟩ => ((f a).run m').after notes

instance : Monad Action where
  pure a := ⟨fun m => ⟨.ok a, m, []⟩⟩
  bind := bind

/-- End in the value or fault of a computation that neither looks at the machine nor changes it. -/
def ofExcept (e : Except Fault α) : Action α where
  run m := ⟨e, m, []⟩

instance : MonadLift (Except Fault) Action where
  monadLift := ofExcept

/-- The machine as it is. -/
def machine : Action Machine where
  run m := ⟨.ok m, m, []⟩

/-- Change the machine. -/
def update (f : Machine → Machine) : Action Unit where
  run m := ⟨.ok (), f m, []⟩

/-- Log a message. -/
def log (message : Diagnostic) : Action Unit where
  run m := ⟨.ok (), m, [.log message]⟩

/-- Log several messages. -/
def logAll (messages : List Diagnostic) : Action Unit where
  run m := ⟨.ok (), m, messages.map Note.log⟩

/-- Report an event. -/
def emit (event : Event) : Action Unit where
  run m := ⟨.ok (), m, [.event event]⟩

/-- Go on at another address. -/
def setPc (pc : UInt32) : Action Unit :=
  update fun m => { m with pc }

/-- Write a byte to the story's memory. -/
def writeByte (address : Nat) (byte : UInt8) : Action Unit := do
  let m ← machine
  m.memory.checkWritable address
  update fun m => { m with memory := m.memory.setByte address byte }

/-- Write a word to the story's memory. -/
def writeWord (address : Nat) (word : UInt16) : Action Unit := do
  let m ← machine
  m.memory.checkWritableWord address
  update fun m => { m with memory := m.memory.setWord address word }

/-- Change the current frame by a computation that may fail. -/
def onFrame (f : Frame → Except Fault Frame) : Action Unit := do
  let m ← machine
  let frame ← f m.calls.current
  update fun m => { m with calls := { m.calls with current := frame } }

/-! ### Running -/

theorem run_bind_ok {x : Action α} {f : α → Action β} {m m' : Machine} {a : α} {notes : List Note}
    (h : x.run m = ⟨.ok a, m', notes⟩) : (x >>= f).run m = ((f a).run m').after notes := by
  show (Action.bind x f).run m = _
  simp only [Action.bind, h]

theorem run_bind_error {x : Action α} {f : α → Action β} {m m' : Machine} {fault : Fault} {notes : List Note}
    (h : x.run m = ⟨.error fault, m', notes⟩) : (x >>= f).run m = ⟨.error fault, m', notes⟩ := by
  show (Action.bind x f).run m = _
  simp only [Action.bind, h]

end Action

end ZMachine
