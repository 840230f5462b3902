import ZMachine.Instruction

/-!
# Events

What a machine reports of its execution.  An event says what happened, not what to do about it: observers decide that.
-/

namespace ZMachine

/-- What happened during a step. -/
inductive Event where
  /-- An instruction's operands have their values and the operation is about to be performed; it may still fail. -/
  | decoded (instruction : Instruction) (operation : Operation) (values : List UInt16)
  /-- A variable has a new value. -/
  | stored (target : Variable) (value : UInt16)
  /-- A routine has been entered; `depth` counts its frame. -/
  | entered (routine returnPc : UInt32) (depth : Nat) (locals : List UInt16)
  /-- A routine has been left; `depth` no longer counts its frame. -/
  | left (depth : Nat) (value : UInt16) (returnPc : UInt32)
deriving DecidableEq, Repr

/-- The event as a numbered line of a trace. -/
def Event.text (number : Nat) (event : Event) : String :=
  let mark := "[" ++ Text.decimal 6 number ++ "]"
  match event with
  | .decoded i op values =>
    let operands := ", ".intercalate (i.operands.map Operand.text)
    let store := match i.target with
      | some v => " -> " ++ v.text
      | none => ""
    s!"{mark} {Text.hex 5 i.address.toNat}: {Text.hex 2 i.opcode.toNat} {i.count.label}:{op.name} " ++
      s!"{operands}{store} = {Text.hexWords values}"
  | .stored target value =>
    s!"{mark}   {target.text} := {Text.marked 4 value.toNat}"
  | .entered routine returnPc depth locals =>
    s!"{mark}   call {Text.hex 5 routine.toNat} (depth {depth}, returns to {Text.hex 5 returnPc.toNat}) " ++
      s!"locals {Text.hexWords locals}"
  | .left depth value returnPc =>
    s!"{mark}   return {Text.marked 4 value.toNat} to {Text.hex 5 returnPc.toNat} (depth {depth})"

end ZMachine
