import ZMachine.Step

/-!
# Sessions

A session is a machine under observation.  An observer receives the events of each step, in order; it can keep them, write
them to the log, or pay no attention.  Nothing it does flows back to the machine.

* `Session.step`: a step of the machine, with its notes handed on;
* `Session.advance`: steps until a budget is spent, the story quits or a step fails;
* `Session.run`: the same with an announcement before and a report after.
-/

namespace ZMachine

/-- Who receives the events. -/
inductive Observer where
  /-- Nobody. -/
  | silent
  /-- A recorder that keeps them. -/
  | recorder
  /-- A writer that logs them, with the number it has seen. -/
  | writer (seen : Nat)
deriving DecidableEq, Repr

/-- A machine under observation. -/
structure Session where
  machine : Machine
  observer : Observer
  /-- The events kept by the recorder. -/
  recorded : Array Event
  /-- The least severe level that the log keeps, or none for no log. -/
  threshold : Option Level
  log : Array Diagnostic

/-- Why a sequence of steps came to its end. -/
inductive Stop where
  | budgetSpent
  | quit
  | failed (failure : Failure)
deriving DecidableEq, Repr

/-- How a run ended, with the number of instructions it completed. -/
inductive RunEnd where
  | quit (executed : Nat)
  | limitReached (executed : Nat)
deriving DecidableEq, Repr

namespace Session

/-- Log a message if its level is kept. -/
def say (s : Session) (message : Diagnostic) : Session :=
  if message.level.isKept s.threshold then { s with log := s.log.push message } else s

/-- Hand an event to the observer. -/
def observe (s : Session) (event : Event) : Session :=
  match s.observer with
  | .silent => s
  | .recorder => { s with recorded := s.recorded.push event }
  | .writer seen => { s with observer := .writer (seen + 1) }.say (.traced (seen + 1) event)

/-- Pass a note on. -/
def take (s : Session) : Note → Session
  | .log message => s.say message
  | .event event => s.observe event

/-- A session on a machine, as yet unobserved, with the messages about its making. -/
def start (machine : Machine) (threshold : Option Level) : Session :=
  let s : Session := { machine, observer := .silent, recorded := #[], threshold, log := #[] }
  let s := s.say (.storyLoaded machine.header machine.memory.size)
  (Operation.problems machine.version).foldl (fun s problem => s.say (.tableProblem problem)) s

/-- Tell an observer that leaves: the log writer says how much it has seen. -/
def dismiss (s : Session) (observer : Observer) : Session :=
  match observer with
  | .writer seen => s.say (.traceEnded seen)
  | _ => s

/-- Put another observer in place.  A log writer starts anew and announces itself before the old observer leaves. -/
def watch (s : Session) (observer : Observer) : Session :=
  let previous := s.observer
  let s := { s with observer }
  let s := match observer with
    | .writer _ => s.say .traceStarted
    | _ => s
  s.dismiss previous

/-- End the session: the observer leaves. -/
def close (s : Session) : Session :=
  { s with observer := .silent }.dismiss s.observer

/-- Act on the machine between steps. -/
def act {α : Type} (s : Session) (action : Action α) : Except Fault α × Session :=
  match action.run s.machine with
  | ⟨result, machine, notes⟩ => (result, notes.foldl take { s with machine })

/-- A step of the machine. -/
def step : Session → Except Failure Progress × Session
  | ⟨machine, observer, recorded, threshold, log⟩ =>
    match machine.step with
    | ⟨result, machine, notes⟩ => (result, notes.foldl take ⟨machine, observer, recorded, threshold, log⟩)

/-- Steps until the budget is spent, the story quits or a step fails. -/
def advance : Nat → Session → Stop × Session
  | 0, s => (.budgetSpent, s)
  | budget + 1, s =>
    match s.step with
    | (.ok .running, s') => advance budget s'
    | (.ok .quit, s') => (.quit, s')
    | (.error failure, s') => (.failed failure, s')

/-- The budget of a run without a limit: as many instructions as a counter of 64 bits can tell apart. -/
def unlimited : Nat := 0x10000000000000000

/-- Announce a run. -/
def announce (s : Session) : Session :=
  (s.say .runStarted).say (.runFrom s.machine.pc)

/-- Report the end of a run that began when `start` instructions had been completed. -/
def report (start : Nat) (stop : Stop) (s : Session) : Except Failure RunEnd × Session :=
  let executed := s.machine.executed - start
  match stop with
  | .budgetSpent => (.ok (.limitReached executed), s.say (.limitReached executed))
  | .quit => (.ok (.quit executed), s.say (.storyQuit executed))
  | .failed failure => (.error failure, s)

/-- Run the story until it quits, fails, or has completed as many instructions as the limit allows. -/
def run (limit : Option Nat) (s : Session) : Except Failure RunEnd × Session :=
  let (stop, s') := s.announce.advance (limit.getD unlimited)
  s'.report s.machine.executed stop

end Session

end ZMachine
