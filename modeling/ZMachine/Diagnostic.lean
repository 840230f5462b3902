import ZMachine.Event
import ZMachine.Header

/-!
# Diagnostics

A diagnostic is a log message before it is put into words: the facts it reports.  Each has a level, the component that
reports it, and a text.
-/

namespace ZMachine

/-- How much a message matters, the most severe first. -/
inductive Level where
  | error
  | warn
  | info
  | debug
  | trace
deriving DecidableEq, Repr

namespace Level

/-- The place of the level in the order, 1 for the most severe. -/
def rank : Level → Nat
  | .error => 1
  | .warn => 2
  | .info => 3
  | .debug => 4
  | .trace => 5

/-- The level in a log line. -/
def label : Level → String
  | .error => "ERROR"
  | .warn => "WARN"
  | .info => "INFO"
  | .debug => "DEBUG"
  | .trace => "TRACE"

/-- Whether a log kept down to a level keeps messages of this one; a log without a level keeps none. -/
def isKept (level : Level) (threshold : Option Level) : Bool :=
  match threshold with
  | some least => level.rank ≤ least.rank
  | none => false

end Level

/-- The parts of the program that report. -/
inductive Component where
  | program
  | machine
  | decoder
  | interpreter
  | tracing
  | arithmetic
  | storage
  | flow
  | objects
  | properties
deriving DecidableEq, Repr

/-- The component in a log line. -/
def Component.label : Component → String
  | .program => "zcore"
  | .machine => "zcore::vm"
  | .decoder => "zcore::instruction"
  | .interpreter => "zcore::interpreter"
  | .tracing => "zcore::trace"
  | .arithmetic => "zcore::opcodes_math"
  | .storage => "zcore::opcodes_memory"
  | .flow => "zcore::opcodes_flow"
  | .objects => "zcore::opcodes_object"
  | .properties => "zcore::object"

/-- The facts of a log message. -/
inductive Diagnostic where
  | loadingStory (path : String)
  | storyReady (version : UInt8) (pc : UInt32)
  | storyLoaded (header : Header) (size : Nat)
  | tableProblem (text : String)
  | runStarted
  | runFrom (pc : UInt32)
  | limitReached (limit : Nat)
  | storyQuit (executed : Nat)
  | stepFailed (failure : Failure)
  | decoded (instruction : Instruction)
  | executing (instruction : Instruction) (values : List UInt16)
  | stackUnderflow (pc : UInt32) (depth : Nat)
  | bitwise (operation : Operation) (a b : UInt16)
  | arithmetic (operation : Operation) (a b : UInt16)
  /-- A variable is about to be assigned. -/
  | assigning (operation : Operation) (target : Variable) (value : UInt16)
  /-- A variable was read. -/
  | loaded (source : Variable) (value : UInt16)
  | wordRead (address : Nat) (value : UInt16)
  | byteRead (address : Nat) (value : UInt8)
  | wordWriting (address : Nat) (value : UInt16)
  | byteWriting (address : Nat) (value : UInt8)
  | pushing (value : UInt16)
  | equality (values : List UInt16) (holds : Bool)
  | comparison (operation : Operation) (a b : UInt16) (holds : Bool)
  | jumping (offset : Int) (pc : UInt32)
  | quitting (pc : UInt32)
  | branching (source target : UInt32)
  | callingNothing
  | calling (routine : Nat) (arguments : List UInt16) (declared : UInt8) (returnPc : UInt32)
  | returning (value : UInt16) (routine returnPc : UInt32)
  | propertyRequested (object : UInt16) (property : UInt8) (value : UInt16)
  | propertyFound (object : UInt16) (property : UInt8) (address size : Nat) (value : UInt16)
  | traceStarted
  | traced (number : Nat) (event : Event)
  | traceEnded (events : Nat)

namespace Diagnostic

/-- How much the message matters. -/
def level : Diagnostic → Level
  | .tableProblem .. | .stepFailed .. => .error
  | .storyReady .. | .runStarted | .runFrom .. | .limitReached .. | .storyQuit .. | .traceStarted | .traceEnded .. => .info
  | .traced _ (.stored ..) => .debug
  | .traced .. => .info
  | _ => .debug

/-- The component that reports. -/
def component : Diagnostic → Component
  | .loadingStory .. | .storyReady .. => .program
  | .storyLoaded .. | .stackUnderflow .. => .machine
  | .decoded .. => .decoder
  | .tableProblem .. | .runStarted | .runFrom .. | .limitReached .. | .storyQuit .. | .stepFailed .. | .executing ..
  | .branching .. | .callingNothing | .calling .. | .returning .. => .interpreter
  | .bitwise .. | .arithmetic .. => .arithmetic
  | .assigning .. | .loaded .. | .wordRead .. | .byteRead .. | .wordWriting .. | .byteWriting .. | .pushing .. => .storage
  | .equality .. | .comparison .. | .jumping .. | .quitting .. => .flow
  | .propertyRequested .. => .objects
  | .propertyFound .. => .properties
  | .traceStarted | .traced .. | .traceEnded .. => .tracing

open Text in
/-- The message. -/
def text : Diagnostic → String
  | .loadingStory path => s!"Loading story file: {path}"
  | .storyReady version pc => s!"V{version} story, initial PC {hex 5 pc.toNat}"
  | .storyLoaded h size =>
    s!"loaded V{h.version} story: {size} bytes, static base {marked 4 h.staticMemory.toNat}, " ++
      s!"start pc {marked 4 h.initialPc.toNat}"
  | .tableProblem text => s!"dispatch table: {text}"
  | .runStarted => "Starting Z-Machine interpreter..."
  | .runFrom pc => s!"Initial PC: {hex 5 pc.toNat}"
  | .limitReached limit => s!"Reached step limit of {limit} instructions"
  | .storyQuit executed => s!"Story quit after {executed} instructions"
  | .stepFailed failure => failure.message
  | .decoded i =>
    s!"decoded {hex 5 i.address.toNat}: opcode {hex 2 i.opcode.toNat} {i.form.label} " ++
      s!"{i.count.label}:{hex 2 i.number.toNat}, {i.operands.length} operands"
  | .executing i values => s!"{hex 5 i.address.toNat}: {i.text} = {hexWords values}"
  | .stackUnderflow pc depth => s!"stack underflow at pc {hex 5 pc.toNat}, call depth {depth}"
  | .bitwise op a b => s!"{op.name} {a} {b}"
  | .arithmetic op a b => s!"{op.name} {Word.signed a} {Word.signed b}"
  | .assigning op target value => s!"{op.name}: {target.text} := {value}"
  | .loaded source value => s!"load: {source.text} = {value}"
  | .wordRead address value => s!"loadw: [{hex 4 address}] = {hex 4 value.toNat}"
  | .byteRead address value => s!"loadb: [{hex 4 address}] = {hex 2 value.toNat}"
  | .wordWriting address value => s!"storew: [{hex 4 address}] := {hex 4 value.toNat}"
  | .byteWriting address value => s!"storeb: [{hex 4 address}] := {hex 2 value.toNat}"
  | .pushing value => s!"push {value}"
  | .equality values holds => s!"je {decimalWords values} -> {holds}"
  | .comparison op a b holds => s!"{op.name} {Word.signed a} {Word.signed b} -> {holds}"
  | .jumping offset pc => s!"jump {withSign offset} to {hex 5 pc.toNat}"
  | .quitting pc => s!"quit at {hex 5 pc.toNat}"
  | .branching source target => s!"branch from {hex 5 source.toNat} to {hex 5 target.toNat}"
  | .callingNothing => "call to address 0, storing 0"
  | .calling routine arguments declared returnPc =>
    s!"call {hex 5 routine} with args {hexWords arguments}, {declared} locals, returning to {hex 5 returnPc.toNat}"
  | .returning value routine returnPc =>
    s!"return {marked 4 value.toNat} from {hex 5 routine.toNat} to {hex 5 returnPc.toNat}"
  | .propertyRequested object property value => s!"put_prop {object} {property} {value}"
  | .propertyFound object property address size value =>
    s!"put_prop: object {object} property {property} at {marked 4 address} (size {size}) := {marked 4 value.toNat}"
  | .traceStarted => "=== EXECUTION TRACE STARTED ==="
  | .traced number event => event.text number
  | .traceEnded events => s!"=== EXECUTION TRACE ENDED ({events} events) ==="

/-- The message as a line of a log.  Further lines of a message are indented by four blanks. -/
def line (d : Diagnostic) : String :=
  "[" ++ Text.padRight 5 d.level.label ++ " " ++ d.component.label ++ "] " ++
    "\n    ".intercalate (d.text.splitOn "\n") ++ "\n"

end Diagnostic

end ZMachine
