import Mathlib.Data.List.Forall2
import ZMachine.Proofs.Budget

/-!
# Observation

A session is asked for steps and runs, and between them its observer can be replaced.  What it replies and what becomes of
its machine is the same whoever watches, and what a recorder receives of a task does not depend on who watched before.

* `Task`, `Request`, `Session.perform`, `Session.serve`: what a session is asked for;
* `Entry`, `Session.transcript`: what there is to see of it, task by task;
* `Session.perform_alike`: sessions on the same machine take the same steps in a task;
* `Session.recorded_serve`: a recorder keeps what it has received, in order;
* `Session.observers_have_no_influence`: scripts with the same tasks have transcripts that agree.
-/

namespace ZMachine

/-- What a session can be asked to do with its story. -/
inductive Task where
  | step
  | run (limit : Option Nat)
deriving DecidableEq, Repr

/-- What a task comes to. -/
inductive Reply where
  | stepped (result : Except Failure Progress)
  | ran (result : Except Failure RunEnd)

/-- What a session can be asked for. -/
inductive Request where
  /-- Do something with the story. -/
  | perform (task : Task)
  /-- Put another observer in place. -/
  | watch (observer : Observer)
deriving DecidableEq, Repr

def Request.task? : Request → Option Task
  | .perform task => some task
  | .watch _ => none

/-- What there is to see of a task. -/
structure Entry where
  reply : Reply
  /-- The machine after the task. -/
  machine : Machine
  /-- The events that a recorder received, if there was one in place. -/
  heard : Option (List Event)

namespace Entry

/-- The same reply, the same machine and, for two recorders, the same events. -/
structure Agrees (e e' : Entry) : Prop where
  reply : e.reply = e'.reply
  machine : e.machine = e'.machine
  heard : ∀ events events', e.heard = some events → e'.heard = some events' → events = events'

/-- There was a recorder in place. -/
def attended (e : Entry) : Bool :=
  e.heard.isSome

theorem Agrees.heard_eq {e e' : Entry} (h : e.Agrees e') (hattended : e.attended = e'.attended) :
    e.heard = e'.heard := by
  rw [attended, attended] at hattended
  rcases he : e.heard with _ | events <;> rcases he' : e'.heard with _ | events'
  · rfl
  · simp [he, he'] at hattended
  · simp [he, he'] at hattended
  · rw [h.heard events events' he he']

theorem map_heard_eq {entries entries' : List Entry} (h : List.Forall₂ Agrees entries entries')
    (hattended : entries.map attended = entries'.map attended) : entries.map heard = entries'.map heard := by
  induction h with
  | nil => rfl
  | cons hagrees _ ih =>
    obtain ⟨hfirst, hrest⟩ := List.cons.inj hattended
    rw [List.map_cons, List.map_cons, hagrees.heard_eq hfirst, ih hrest]

end Entry

namespace Session

variable {s t : Session} {n : Nat} {task : Task} {script script' : List Request}

def perform (s : Session) : Task → Reply × Session
  | .step => (.stepped s.step.1, s.step.2)
  | .run limit => (.ran (s.run limit).1, (s.run limit).2)

/-- The session at the end of a script. -/
def serve (s : Session) : List Request → Session
  | [] => s
  | .perform task :: script => (s.perform task).2.serve script
  | .watch observer :: script => (s.watch observer).serve script

def entry (s : Session) (task : Task) : Entry where
  reply := (s.perform task).1
  machine := (s.perform task).2.machine
  heard := if s.observer = .recorder then some ((s.perform task).2.recorded.toList.drop s.recorded.size) else none

/-- The entries of the tasks of a script, in their order. -/
def transcript (s : Session) : List Request → List Entry
  | [] => []
  | .perform task :: script => s.entry task :: (s.perform task).2.transcript script
  | .watch observer :: script => (s.watch observer).transcript script

/-! ### Tasks -/

/-- Sessions on the same machine give the same reply to a task and take the same number of steps for it. -/
theorem perform_alike (h : s.machine = t.machine) (task : Task) :
    (s.perform task).1 = (t.perform task).1 ∧
    ∃ n, (s.perform task).2.unlogged = (s.after n).unlogged ∧ (t.perform task).2.unlogged = (t.after n).unlogged := by
  cases task with
  | step =>
    refine ⟨?_, 1, rfl, rfl⟩
    show Reply.stepped s.step.1 = .stepped t.step.1
    rw [s.machine_step.1, t.machine_step.1, h]
  | run limit =>
    show Reply.ran (s.run limit).1 = .ran (t.run limit).1 ∧ _
    rcases s.run_cases limit with ⟨hgo, hresult, hstate⟩ | ⟨j, result, hj, hstop, hresult, hstate⟩
    · obtain ⟨hresult', hstate'⟩ := run_of_continues limit ((continues_congr h).1 hgo)
      exact ⟨by rw [hresult, hresult'], _, hstate, hstate'⟩
    · obtain ⟨hresult', hstate'⟩ := result_of_stopsAt limit ((stopsAt_congr h).1 hstop) hj
      exact ⟨by rw [hresult, hresult'], j, hstate, hstate'⟩

theorem machine_perform (h : (s.perform task).2.unlogged = (s.after n).unlogged) :
    (s.perform task).2.machine = s.machine.after n := by
  rw [← machine_unlogged, h, machine_unlogged, machine_after]

/-- A recorder receives the events of the steps that a task takes. -/
theorem heard_entry (h : (s.perform task).2.unlogged = (s.after n).unlogged) :
    (s.entry task).heard = if s.observer = .recorder then some (s.machine.history n) else none := by
  show (if s.observer = .recorder then some ((s.perform task).2.recorded.toList.drop s.recorded.size) else none) = _
  have hrecorded : (s.perform task).2.recorded = (s.after n).recorded := by
    rw [← recorded_unlogged, h, recorded_unlogged]
  by_cases hobserver : s.observer = .recorder
  · rw [hrecorded, recorded_after hobserver, List.drop_left' Array.length_toList]
  · rw [if_neg hobserver, if_neg hobserver]

theorem recorded_perform (s : Session) (task : Task) :
    (s.perform task).2.recorded.toList = s.recorded.toList ++ (s.entry task).heard.getD [] := by
  obtain ⟨-, n, hstate, -⟩ := perform_alike (s := s) rfl task
  rw [heard_entry hstate, ← recorded_unlogged, hstate, recorded_unlogged]
  by_cases hobserver : s.observer = .recorder
  · rw [recorded_after hobserver, if_pos hobserver]
    rfl
  · rw [(after_not_recorder hobserver n).2, if_neg hobserver]
    exact (List.append_nil _).symm

/-- What there is to see of a task is up to the machine. -/
theorem entry_agrees (h : s.machine = t.machine) (task : Task) : (s.entry task).Agrees (t.entry task) := by
  obtain ⟨hreply, n, hs, ht⟩ := perform_alike h task
  refine ⟨hreply, ?_, ?_⟩
  · show (s.perform task).2.machine = (t.perform task).2.machine
    rw [machine_perform hs, machine_perform ht, h]
  · intro events events' he he'
    rw [heard_entry hs] at he
    rw [heard_entry ht, ← h] at he'
    split at he
    · split at he'
      · exact (Option.some.inj he).symm.trans (Option.some.inj he')
      · cases he'
    · cases he

/-! ### Scripts -/

theorem machine_watch (s : Session) (observer : Observer) : (s.watch observer).machine = s.machine := by
  rw [← machine_unlogged, unlogged_watch]
  rfl

theorem recorded_watch (s : Session) (observer : Observer) : (s.watch observer).recorded = s.recorded := by
  rw [← recorded_unlogged, unlogged_watch]
  rfl

theorem recorded_serve (s : Session) (script : List Request) :
    (s.serve script).recorded.toList =
      s.recorded.toList ++ ((s.transcript script).map Entry.heard).flatMap (Option.getD · []) := by
  induction script generalizing s with
  | nil => exact (List.append_nil _).symm
  | cons request script ih =>
    cases request with
    | perform task =>
      show ((s.perform task).2.serve script).recorded.toList = _
      rw [ih, recorded_perform, transcript, List.map_cons, List.flatMap_cons, List.append_assoc]
    | watch observer =>
      show ((s.watch observer).serve script).recorded.toList = _
      rw [ih, recorded_watch, transcript]

theorem transcript_nil (s : Session) (h : script.filterMap Request.task? = []) : s.transcript script = [] := by
  induction script generalizing s with
  | nil => rfl
  | cons request script ih =>
    cases request with
    | perform task => cases h
    | watch observer => exact ih (s.watch observer) h

/-- Observers come and go before the first task, which finds the machine as it was. -/
theorem transcript_cons (s : Session) {tasks : List Task} (h : script.filterMap Request.task? = task :: tasks) :
    ∃ (s' : Session) (rest : List Request), s'.machine = s.machine ∧ rest.filterMap Request.task? = tasks ∧
      s.transcript script = s'.entry task :: (s'.perform task).2.transcript rest := by
  induction script generalizing s with
  | nil => cases h
  | cons request script ih =>
    cases request with
    | perform first =>
      obtain ⟨rfl, hrest⟩ := List.cons.inj h
      exact ⟨s, script, rfl, hrest, rfl⟩
    | watch observer =>
      obtain ⟨s', rest, hmachine, hrest⟩ := ih (s.watch observer) h
      exact ⟨s', rest, hmachine.trans (s.machine_watch observer), hrest⟩

theorem transcript_agrees (h : s.machine = t.machine)
    (htasks : script.filterMap Request.task? = script'.filterMap Request.task?) :
    List.Forall₂ Entry.Agrees (s.transcript script) (t.transcript script') := by
  generalize htasks' : script'.filterMap Request.task? = tasks at htasks
  induction tasks generalizing s t script script' with
  | nil =>
    rw [transcript_nil s htasks, transcript_nil t htasks']
    exact .nil
  | cons task tasks ih =>
    obtain ⟨s₁, rest, hs₁, hrest, hs⟩ := transcript_cons s htasks
    obtain ⟨t₁, rest', ht₁, hrest', ht⟩ := transcript_cons t htasks'
    have hagrees : (s₁.entry task).Agrees (t₁.entry task) := entry_agrees (by rw [hs₁, ht₁, h]) task
    rw [hs, ht]
    exact .cons hagrees (ih hagrees.machine hrest' hrest)

theorem machine_start (m : Machine) (threshold : Option Level) : (start m threshold).machine = m := by
  rw [← machine_unlogged, unlogged_start]

theorem recorded_start (m : Machine) (threshold : Option Level) : (start m threshold).recorded = #[] := by
  rw [← recorded_unlogged, unlogged_start]

/-- **Observers have no influence.**  Let two sessions on one machine be asked for the same steps and runs, with any
observers put in place before, between and after them.  Task by task they give the same replies and leave the same
machine, and two recorders receive the same events.  So if the recorders were in place during the same tasks, they have
kept the same trace. -/
theorem observers_have_no_influence (m : Machine) (threshold threshold' : Option Level)
    (htasks : script.filterMap Request.task? = script'.filterMap Request.task?) :
    List.Forall₂ Entry.Agrees ((start m threshold).transcript script) ((start m threshold').transcript script') ∧
    (((start m threshold).transcript script).map Entry.attended =
        ((start m threshold').transcript script').map Entry.attended →
      ((start m threshold).serve script).recorded = ((start m threshold').serve script').recorded) := by
  have hagree : List.Forall₂ Entry.Agrees ((start m threshold).transcript script)
      ((start m threshold').transcript script') :=
    transcript_agrees ((machine_start m threshold).trans (machine_start m threshold').symm) htasks
  refine ⟨hagree, fun hattended => ?_⟩
  apply Array.toList_inj.1
  rw [recorded_serve, recorded_serve, recorded_start, recorded_start, Entry.map_heard_eq hagree hattended]

/-- A story that adds two numbers and then divides by zero. -/
def mishap : Array UInt8 :=
  #[3, 0, 0, 1, 0, 34, 0, 34, 0, 34, 0, 34, 0, 16, 0, 34, 0, 0, 48, 48, 48, 48, 48, 48, 0, 34, 0, 0, 0, 0, 0, 0, 0, 0,
    0x14, 0x02, 0x03, 0x00, 0x17, 0x01, 0x00, 0x00]

/-- A recorder during the first task and a log writer during the second. -/
def recordedThenWritten : List Request :=
  [.watch .recorder, .perform (.run (some 1)), .watch (.writer 0), .perform .step]

/-- A log writer that a recorder replaces before the first task, and nobody during the second. -/
def recordedThenSilent : List Request :=
  [.watch (.writer 0), .watch .recorder, .perform (.run (some 1)), .watch .silent, .perform .step]

theorem mishap_watched_or_not :
    ∃ m, Machine.load mishap = .ok m ∧
      ((start m none).transcript recordedThenWritten).map Entry.reply =
        [.ran (.ok (.limitReached 1)), .stepped (.error ⟨38, 1, 1, .divisionByZero⟩)] ∧
      ((start m none).serve recordedThenWritten).recorded.toList =
        [.decoded ⟨34, 0x14, 0x14, .long, .two, [.small 2, .small 3], some 0, none, 38⟩ .add [2, 3], .stored .stack 5] ∧
      List.Forall₂ Entry.Agrees ((start m none).transcript recordedThenWritten)
        ((start m none).transcript recordedThenSilent) ∧
      ((start m none).serve recordedThenWritten).recorded = ((start m none).serve recordedThenSilent).recorded :=
  have htasks : recordedThenWritten.filterMap Request.task? = recordedThenSilent.filterMap Request.task? := rfl
  ⟨_, rfl, rfl, rfl, (observers_have_no_influence _ none none htasks).1,
    (observers_have_no_influence _ none none htasks).2 (.trans (b := [true, false]) rfl rfl)⟩

end Session

end ZMachine
