import ZMachine.Opcode.Standard
import ZMachine.Text.Number

/-!
# The operations this machine executes

`Operation` has a constructor for each of them and `Operation.entry` says where in the standard's tables it stands, how
many operands it works on and which tail its instructions have.

* `Operation.lookup?`: the operation with given coordinates; `lookup?_eq_some_iff` ties it to the entries;
* `Operation.problems`: where the entries disagree with the standard;
* `coverage`: what the standard declares for a version, and which part of it is executed.
-/

namespace ZMachine

/-- The operations, by mnemonic. -/
inductive Operation where
  | je
  | jl
  | jg
  | or
  | and
  | store
  | loadw
  | loadb
  | add
  | sub
  | mul
  | div
  | mod
  | jz
  | ret
  | jump
  | load
  | rtrue
  | rfalse
  | retPopped
  | quit
  | call
  | storew
  | storeb
  | putProp
  | push
  | pull
deriving DecidableEq, Repr

namespace Operation

/-- What the decoder and the listings know of an operation. -/
structure Entry where
  name : String
  count : OperandCount
  number : UInt8
  /-- Fewer operands than this make the instruction malformed. -/
  minOperands : Nat
  /-- Whether a store variable follows the operands. -/
  stores : Bool
  /-- Whether a branch follows the operands and the store variable. -/
  branches : Bool
deriving DecidableEq, Repr

/-- The entry of an operation. -/
def entry : Operation → Entry
  | .je => ⟨"je", .two, 1, 2, false, true⟩
  | .jl => ⟨"jl", .two, 2, 2, false, true⟩
  | .jg => ⟨"jg", .two, 3, 2, false, true⟩
  | .or => ⟨"or", .two, 8, 2, true, false⟩
  | .and => ⟨"and", .two, 9, 2, true, false⟩
  | .store => ⟨"store", .two, 13, 2, false, false⟩
  | .loadw => ⟨"loadw", .two, 15, 2, true, false⟩
  | .loadb => ⟨"loadb", .two, 16, 2, true, false⟩
  | .add => ⟨"add", .two, 20, 2, true, false⟩
  | .sub => ⟨"sub", .two, 21, 2, true, false⟩
  | .mul => ⟨"mul", .two, 22, 2, true, false⟩
  | .div => ⟨"div", .two, 23, 2, true, false⟩
  | .mod => ⟨"mod", .two, 24, 2, true, false⟩
  | .jz => ⟨"jz", .one, 0, 1, false, true⟩
  | .ret => ⟨"ret", .one, 11, 1, false, false⟩
  | .jump => ⟨"jump", .one, 12, 1, false, false⟩
  | .load => ⟨"load", .one, 14, 1, true, false⟩
  | .rtrue => ⟨"rtrue", .zero, 0, 0, false, false⟩
  | .rfalse => ⟨"rfalse", .zero, 1, 0, false, false⟩
  | .retPopped => ⟨"ret_popped", .zero, 8, 0, false, false⟩
  | .quit => ⟨"quit", .zero, 10, 0, false, false⟩
  | .call => ⟨"call", .var, 0, 1, true, false⟩
  | .storew => ⟨"storew", .var, 1, 3, false, false⟩
  | .storeb => ⟨"storeb", .var, 2, 3, false, false⟩
  | .putProp => ⟨"put_prop", .var, 3, 3, false, false⟩
  | .push => ⟨"push", .var, 8, 1, false, false⟩
  | .pull => ⟨"pull", .var, 9, 1, false, false⟩

/-- The mnemonic of an operation. -/
def name (op : Operation) : String :=
  op.entry.name

/-- All operations, table after table in the order two, one, no and any number of operands. -/
def all : List Operation :=
  [.je, .jl, .jg, .or, .and, .store, .loadw, .loadb, .add, .sub, .mul, .div, .mod, .jz, .ret, .jump, .load, .rtrue,
    .rfalse, .retPopped, .quit, .call, .storew, .storeb, .putProp, .push, .pull]

/-- The operation with the given coordinates, if it is executed. -/
def lookup? (count : OperandCount) (number : UInt8) : Option Operation :=
  all.find? fun op => op.entry.count = count ∧ op.entry.number = number

/-- How an entry disagrees with the standard's tables for a version, in words. -/
def disagreements (version : UInt8) (op : Operation) : List String :=
  let e := op.entry
  let standardName := Standard.name e.count e.number
  (if standardName = e.name then [] else
    [s!"{e.count.label}:{Text.hex 2 e.number.toNat} is named {e.name} but the standard calls it {standardName}"]) ++
  (if Standard.stores version e.count e.number = e.stores then [] else
    [s!"{e.name} store flag disagrees with the standard"]) ++
  (if Standard.branches version e.count e.number = e.branches then [] else
    [s!"{e.name} branch flag disagrees with the standard"])

/-- All disagreements between the entries and the standard's tables for a version. -/
def problems (version : UInt8) : List String :=
  all.flatMap (disagreements version)

/-! ### Lookup -/

@[simp]
theorem lookup?_entry (op : Operation) : lookup? op.entry.count op.entry.number = some op := by
  cases op <;> rfl

theorem lookup?_eq_some_iff {count : OperandCount} {number : UInt8} {op : Operation} :
    lookup? count number = some op ↔ op.entry.count = count ∧ op.entry.number = number := by
  constructor
  · intro h
    simpa using List.find?_some h
  · rintro ⟨rfl, rfl⟩
    exact op.lookup?_entry

end Operation

/-- A line of the coverage report. -/
structure Coverage where
  count : OperandCount
  number : UInt8
  name : String
  executed : Bool
deriving DecidableEq, Repr

/-- The opcodes that the standard declares for a version, each with whether it is executed. -/
def coverage (version : UInt8) : List Coverage :=
  [OperandCount.two, .one, .zero, .var].flatMap fun count =>
    ((List.range 32).map UInt8.ofNat).filterMap fun number =>
      if Standard.declares version count number then
        some ⟨count, number, Standard.name count number, (Operation.lookup? count number).isSome⟩
      else
        none

end ZMachine
