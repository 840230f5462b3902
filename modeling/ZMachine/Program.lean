import ZMachine.CommandLine
import ZMachine.Session
import ZMachine.Settings

/-!
# The program

What the program writes for a command, given the files it reads.  A command that does not run a story is answered at once;
one that does yields a session to be run and then concluded.

* `Launch.prepare`: everything before the first instruction;
* `Launch.conclude`: everything after the last one;
* `Program.run`: the whole program.
-/

namespace ZMachine

/-- Where the program writes. -/
inductive Channel where
  | out
  | err
deriving DecidableEq, Repr

/-- A piece of text on a channel. -/
structure Output where
  channel : Channel
  text : String
deriving DecidableEq, Repr

/-- What the program finds around it. -/
structure World where
  /-- The name by which it was called. -/
  program : String
  /-- How much to log, as the environment says. -/
  logFilter : Option String
  /-- The outcome of reading a file. -/
  read : String → FileRead

/-- The level a log is kept down to, as a word says it, in whatever case; the empty word asks for errors.  Other words name
parts of other programs, so that nothing is kept. -/
def Level.ofFilter (word : String) : Option Level :=
  match word.toLower with
  | "error" | "" => some .error
  | "warn" => some .warn
  | "info" => some .info
  | "debug" => some .debug
  | "trace" => some .trace
  | _ => none

/-- The word that says how much is logged: that of the environment, else that of the settings, else one that shows a trace
if there is to be one, and otherwise warnings. -/
def logWord (environment settings : Option String) (trace : Bool) : String :=
  (environment <|> settings).getD (if trace then "info" else "warn")

/-- A program at work: done, or about to run a story. -/
inductive Launch where
  | finished (output : List Output) (code : UInt8)
  | ready (output : List Output) (session : Session) (limit : Option Nat)

namespace Launch

/-- Messages of a log as they are written. -/
def logged (log : List Diagnostic) : List Output :=
  log.map fun d => ⟨.err, d.line⟩

/-- Those messages that a log keeps, as they are written. -/
def loggedDownTo (threshold : Option Level) (log : List Diagnostic) : List Output :=
  logged (log.filter fun d => d.level.isKept threshold)

/-- What is written when a story file cannot be read. -/
def storyProblem (path : String) (cause : FileError) : String :=
  match cause with
  | .missing =>
    String.join [s!"Error: Story file not found: {path}\n", "\n", "Please check:\n", "• File path is correct\n",
      "• You're running from the right directory\n"]
  | .denied => s!"Error: Permission denied accessing story file: {path}\n"
  | _ =>
    let deed := if cause.isAfterOpening then "read" else "open"
    s!"Error: Cannot {deed} story file '{path}': {cause.message}\n"

/-- The report on a story's header. -/
def headerReport (m : Machine) : String :=
  let computed := m.memory.checksum m.header.fileSize
  let verdict := if computed = m.header.checksum then "matches" else "MISMATCH"
  m.header.text ++ s!"Computed checksum:        {Text.marked 4 computed.toNat} ({verdict})\n"

/-- A line of the report on coverage. -/
def coverageLine (c : Coverage) : String :=
  let mark := if c.executed then "yes" else "-"
  s!"  {c.count.label}:{Text.hex 2 c.number.toNat} {Text.padRight 16 c.name} {mark}\n"

/-- The report on the opcodes that a version declares. -/
def coverageReport (version : UInt8) : String :=
  let problems := (Operation.problems version).map fun problem => s!"Dispatch table problem: {problem}\n"
  let lines := coverage version
  let executed := lines.countP Coverage.executed
  String.join problems ++ s!"V{version} opcodes: {executed} of {lines.length} implemented\n" ++
    String.join (lines.map coverageLine)

/-- Go on with a story that has been read. -/
def withStory (options : Options) (settings : Settings) (threshold : Option Level) (opening : List Output)
    (bytes : ByteArray) : Launch :=
  match Machine.load bytes.data with
  | .error fault =>
    .finished (opening ++ [⟨.err, s!"Error: '{options.story}' is not a usable story file: {fault.message}\n"⟩]) 1
  | .ok machine =>
    let session := Session.start machine threshold
    if options.header then
      .finished (opening ++ logged session.log.toList ++ [⟨.out, headerReport machine⟩]) 0
    else if options.coverage then
      .finished (opening ++ logged session.log.toList ++ [⟨.out, coverageReport machine.version⟩]) 0
    else
      let session := if options.trace || settings.trace then session.watch (.writer 0) else session
      .ready opening (session.say (.storyReady machine.version machine.pc)) (options.steps <|> settings.stepLimit)

/-- Go on with options that have been read. -/
def withOptions (world : World) (options : Options) : Launch :=
  let settings := match options.config with
    | some path => Settings.load path (world.read path)
    | none => .ok {}
  match settings with
  | .error e => .finished [⟨.err, s!"Error: {e.record}\n"⟩] 1
  | .ok settings =>
    let threshold := Level.ofFilter (logWord world.logFilter settings.logLevel (options.trace || settings.trace))
    let opening := loggedDownTo threshold [.loadingStory options.story]
    match world.read options.story with
    | .ok bytes => withStory options settings threshold opening bytes
    | .error cause => .finished (opening ++ [⟨.err, storyProblem options.story cause⟩]) 1

/-- Everything before the first instruction.  A command without arguments asks for help. -/
def prepare (world : World) : List String → Launch
  | [] => .finished [⟨.out, usage world.program⟩] 0
  | story :: arguments =>
    match Options.parse story arguments with
    | .error e => .finished [⟨.err, s!"Error: {e.message}\n"⟩] 1
    | .ok options => withOptions world options

/-- Everything after the last instruction: what is left in the log, the result, and the leave of the observer. -/
def conclude (result : Except Failure RunEnd) (session : Session) : List Output × UInt8 :=
  let log := logged session.log.toList
  let leave := logged { session with log := #[] }.close.log.toList
  match result with
  | .ok (.quit executed) => (log ++ [⟨.out, s!"Story quit after {executed} instructions.\n"⟩] ++ leave, 0)
  | .ok (.limitReached executed) =>
    let pc := Text.hex 5 session.machine.pc.toNat
    (log ++ [⟨.out, s!"Stopped after {executed} instructions at PC {pc}.\n"⟩] ++ leave, 0)
  | .error failure =>
    (log ++ [⟨.err, s!"\nError during execution: {failure.message}\n"⟩] ++ leave ++
      [⟨.err, s!"Error: {failure.record}\n"⟩], 1)

end Launch

/-- What the program writes for a command, and its exit code. -/
def Program.run (world : World) (arguments : List String) : List Output × UInt8 :=
  match Launch.prepare world arguments with
  | .finished output code => (output, code)
  | .ready output session limit =>
    let (result, session) := session.run limit
    let (rest, code) := Launch.conclude result session
    (output ++ rest, code)

end ZMachine
