import ZMachine.Opcode.Basic
import ZMachine.Text.Number

/-!
# Faults

What can stop the loading of a story or the execution of an instruction.  A fault is the cause, with the numbers that
belong to it; `Fault.message` is its wording and `Fault.record` its form with every field by name.

A `Failure` is a fault together with the place of the instruction that met it.
-/

namespace ZMachine

/-- The part of a story file that was being read when the file ended. -/
inductive Part where
  | header
  | opcode
  | operandTypes
  | largeConstant
  | smallConstant
  | variableNumber
  | storeVariable
  | branchOffset
deriving DecidableEq, Repr

/-- The part in words. -/
def Part.label : Part → String
  | .header => "header"
  | .opcode => "opcode"
  | .operandTypes => "operand type byte"
  | .largeConstant => "large constant"
  | .smallConstant => "small constant"
  | .variableNumber => "variable operand"
  | .storeVariable => "store variable"
  | .branchOffset => "branch offset"

/-- Causes of failure. -/
inductive Fault where
  /-- The file ends before a part that would need `needed` bytes of it. -/
  | truncated (part : Part) (needed size : Nat)
  /-- No byte of the image has this address. -/
  | outOfBounds (address size : Nat)
  /-- A write at or above the base of static memory. -/
  | readOnly (address staticBase : Nat)
  /-- A local variable that the routine does not declare. -/
  | undeclaredLocal (number declared : UInt8)
  /-- A routine that declares more locals than a frame has. -/
  | badRoutine (address : Nat) (declared : UInt8)
  /-- An opcode that this machine does not execute. -/
  | unimplemented (opcode : UInt8) (count : OperandCount) (number : UInt8) (pc : UInt32)
  /-- Fewer operands than the operation works on. -/
  | missingOperands (name : String) (expected found : Nat)
  | stackUnderflow
  | stackOverflow
  | callDepthExceeded (limit : Nat)
  | returnFromTopLevel
  | divisionByZero
  | invalidObject (object : UInt16)
  | propertyNotFound (object : UInt16) (property : UInt8)
  /-- A property whose data is neither a byte nor a word. -/
  | propertyTooLarge (object : UInt16) (property : UInt8) (size : Nat)
deriving DecidableEq, Repr

namespace Fault

open Text

/-- The name of the cause. -/
def kind : Fault → String
  | .truncated .. => "TruncatedFile"
  | .outOfBounds .. => "OutOfBounds"
  | .readOnly .. => "ReadOnlyViolation"
  | .undeclaredLocal .. => "InvalidVariableReference"
  | .badRoutine .. => "InvalidRoutineHeader"
  | .unimplemented .. => "UnimplementedOpcode"
  | .missingOperands .. => "MissingOperands"
  | .stackUnderflow => "StackUnderflow"
  | .stackOverflow => "StackOverflow"
  | .callDepthExceeded .. => "CallDepthExceeded"
  | .returnFromTopLevel => "ReturnFromTopLevel"
  | .divisionByZero => "DivisionByZero"
  | .invalidObject .. => "InvalidObject"
  | .propertyNotFound .. => "PropertyNotFound"
  | .propertyTooLarge .. => "PropertyTooLarge"

/-- The fault in words. -/
def message : Fault → String
  | .truncated part needed size =>
    s!"truncated story file: {part.label} needs {needed} bytes, image has {size}"
  | .outOfBounds address size =>
    s!"address {marked 4 address} out of bounds (image length {marked 4 size})"
  | .readOnly address staticBase =>
    s!"write to {marked 4 address} at or above static memory base {marked 4 staticBase}"
  | .undeclaredLocal number declared =>
    s!"variable {marked 2 number.toNat} refers to a local but the routine declares {declared} locals"
  | .badRoutine address declared =>
    s!"routine at {marked 4 address} declares {declared} locals (maximum is 15)"
  | .unimplemented opcode count number pc =>
    s!"unimplemented opcode {marked 2 opcode.toNat} ({count.label}:{marked 2 number.toNat}) at {marked 4 pc.toNat}"
  | .missingOperands name expected found =>
    s!"{name} needs {expected} operands, instruction has {found}"
  | .stackUnderflow => "evaluation stack underflow"
  | .stackOverflow => "evaluation stack overflow"
  | .callDepthExceeded limit => s!"call depth exceeds {limit} frames"
  | .returnFromTopLevel => "return from the top-level routine"
  | .divisionByZero => "division by zero"
  | .invalidObject object => s!"invalid object number {object}"
  | .propertyNotFound object property => s!"property {property} not found on object {object}"
  | .propertyTooLarge object property size =>
    s!"property {property} on object {object} has size {size}, put_prop needs 1 or 2"

/-- The fields of the fault, each with its name and value. -/
def fields : Fault → List (String × String)
  | .truncated part needed size =>
    [("what", s!"\"{part.label}\""), ("needed", s!"{needed}"), ("len", s!"{size}")]
  | .outOfBounds address size => [("addr", s!"{address}"), ("len", s!"{size}")]
  | .readOnly address staticBase => [("addr", s!"{address}"), ("static_base", s!"{staticBase}")]
  | .undeclaredLocal number declared => [("var", s!"{number}"), ("num_locals", s!"{declared}")]
  | .badRoutine address declared => [("addr", s!"{address}"), ("num_locals", s!"{declared}")]
  | .unimplemented opcode count number pc =>
    [("opcode", s!"{opcode}"), ("count", count.tag), ("number", s!"{number}"), ("pc", s!"{pc}")]
  | .missingOperands name expected found =>
    [("name", s!"\"{name}\""), ("expected", s!"{expected}"), ("found", s!"{found}")]
  | .callDepthExceeded limit => [("limit", s!"{limit}")]
  | .invalidObject object => [("object", s!"{object}")]
  | .propertyNotFound object property => [("object", s!"{object}"), ("property", s!"{property}")]
  | .propertyTooLarge object property size =>
    [("object", s!"{object}"), ("property", s!"{property}"), ("size", s!"{size}")]
  | .stackUnderflow | .stackOverflow | .returnFromTopLevel | .divisionByZero => []

/-- A name, and after it the fields, if any, in braces. -/
def writeRecord (name : String) : List (String × String) → String
  | [] => name
  | fields =>
    name ++ " \x7b " ++ ", ".intercalate (fields.map fun (field, value) => field ++ ": " ++ value) ++ " \x7d"

/-- The fault with every field by name. -/
def record (fault : Fault) : String :=
  writeRecord fault.kind fault.fields

end Fault

/-- A fault met during execution. -/
structure Failure where
  /-- Address of the instruction that failed. -/
  pc : UInt32
  /-- Number of frames when it had failed. -/
  depth : Nat
  /-- Number of instructions completed before it. -/
  executed : Nat
  cause : Fault
deriving DecidableEq, Repr

namespace Failure

open Text

/-- The failure in words. -/
def message (failure : Failure) : String :=
  s!"execution stopped at pc {marked 4 failure.pc.toNat} (frame depth {failure.depth}, " ++
    s!"{failure.executed} instructions executed): {failure.cause.message}"

/-- The failure with every field by name. -/
def record (failure : Failure) : String :=
  Fault.writeRecord "RunError"
    [("pc", s!"{failure.pc}"), ("frame_depth", s!"{failure.depth}"), ("instructions", s!"{failure.executed}"),
      ("source", failure.cause.record)]

end Failure

end ZMachine
