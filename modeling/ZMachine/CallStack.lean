import ZMachine.Fault

/-!
# Routine frames

Each running routine has a frame: its locals, its own evaluation stack and what happens on return.  The frames form the
call stack.  Its outermost frame belongs to no routine and is never left, so there always is a current frame.

* `Frame.push`, `Frame.pop`, `Frame.peek`, `Frame.replaceTop`: the evaluation stack, of at most 1024 values;
* `Frame.readLocal`, `Frame.writeLocal`: the declared locals;
* `Frame.setLocals`: the locals as a routine finds them when it is called;
* `CallStack.push`, `CallStack.pop`: entering and leaving a routine, at most 1024 frames deep.
-/

namespace ZMachine

/-- The most values on one evaluation stack. -/
def stackLimit : Nat := 1024

/-- The number of local slots in a frame. -/
def localLimit : Nat := 15

/-- The most frames, counting the outermost. -/
def depthLimit : Nat := 1024

/-- The frame of a routine. -/
structure Frame where
  /-- Address of the routine, 0 for the outermost frame. -/
  routine : UInt32
  /-- Where execution goes on after the return. -/
  returnPc : UInt32
  /-- The number of the variable that takes the returned value, if it is kept. -/
  returnStore : Option UInt8
  /-- The number of locals that the routine declares. -/
  declared : UInt8
  locals : Vector UInt16 localLimit
  /-- The evaluation stack, its top first. -/
  stack : List UInt16
deriving DecidableEq, Repr

namespace Frame

/-- The frame in which execution starts. -/
def outermost : Frame where
  routine := 0
  returnPc := 0
  returnStore := none
  declared := 0
  locals := Vector.replicate localLimit 0
  stack := []

/-- A frame for a routine, all its locals zero.  A routine cannot declare more locals than there are slots. -/
def create (routine returnPc : UInt32) (returnStore : Option UInt8) (declared : UInt8) : Except Fault Frame :=
  if localLimit < declared.toNat then
    .error (.badRoutine routine.toNat declared)
  else
    .ok { outermost with routine, returnPc, returnStore, declared }

/-- The values of the declared locals. -/
def declaredLocals (f : Frame) : List UInt16 :=
  f.locals.toList.take f.declared.toNat

/-- The frame with values in its first locals, one after the other, as far as locals are declared. -/
def fillLocals (f : Frame) (values : List UInt16) : Frame :=
  let cells := (values.take f.declared.toNat).zipIdx
  { f with locals := cells.foldl (fun locals (value, slot) => locals.setIfInBounds slot value) f.locals }

/-- The frame with its locals set for a call: to the initial values, and then to the arguments as far as there are any. -/
def setLocals (f : Frame) (initial arguments : List UInt16) : Frame :=
  (f.fillLocals initial).fillLocals arguments

/-- The value of a declared local. -/
def readLocal (f : Frame) (slot : UInt8) : Except Fault UInt16 :=
  if slot < f.declared then .ok (f.locals.toArray.getD slot.toNat 0)
  else .error (.undeclaredLocal (slot + 1) f.declared)

/-- Set a declared local. -/
def writeLocal (f : Frame) (slot : UInt8) (value : UInt16) : Except Fault Frame :=
  if slot < f.declared then .ok { f with locals := f.locals.setIfInBounds slot.toNat value }
  else .error (.undeclaredLocal (slot + 1) f.declared)

/-- Put a value on the evaluation stack. -/
def push (f : Frame) (value : UInt16) : Except Fault Frame :=
  if stackLimit ≤ f.stack.length then .error .stackOverflow
  else .ok { f with stack := value :: f.stack }

/-- Take the top value off the evaluation stack. -/
def pop (f : Frame) : Except Fault (UInt16 × Frame) :=
  match f.stack with
  | [] => .error .stackUnderflow
  | top :: rest => .ok (top, { f with stack := rest })

/-- The top value of the evaluation stack. -/
def peek (f : Frame) : Except Fault UInt16 :=
  match f.stack with
  | [] => .error .stackUnderflow
  | top :: _ => .ok top

/-- Another value in place of the top of the evaluation stack. -/
def replaceTop (f : Frame) (value : UInt16) : Except Fault Frame :=
  match f.stack with
  | [] => .error .stackUnderflow
  | _ :: rest => .ok { f with stack := value :: rest }

end Frame

/-- The frames of the running routines. -/
structure CallStack where
  current : Frame
  /-- The frames below the current one, the innermost first. -/
  callers : List Frame
deriving DecidableEq, Repr

namespace CallStack

/-- The call stack in which execution starts. -/
def start : CallStack :=
  ⟨.outermost, []⟩

/-- The number of frames. -/
def depth (c : CallStack) : Nat :=
  c.callers.length + 1

/-- All frames, the outermost first. -/
def frames (c : CallStack) : List Frame :=
  (c.current :: c.callers).reverse

/-- Enter a routine. -/
def push (c : CallStack) (frame : Frame) : Except Fault CallStack :=
  if depthLimit ≤ c.depth then .error (.callDepthExceeded depthLimit)
  else .ok ⟨frame, c.current :: c.callers⟩

/-- Leave the current routine; its frame comes with the remaining ones. -/
def pop (c : CallStack) : Except Fault (Frame × CallStack) :=
  match c.callers with
  | [] => .error .returnFromTopLevel
  | caller :: callers => .ok (c.current, ⟨caller, callers⟩)

@[simp]
theorem length_frames (c : CallStack) : c.frames.length = c.depth := by
  simp [frames, depth]

end CallStack

end ZMachine
