import ZMachine.Program

/-!
# The command

Reads the files that a command names, runs the story in slices and writes as it goes.
-/

namespace ZMachine.Main

/-- Write a piece of text to its channel. -/
def write (output : Output) : IO Unit :=
  match output.channel with
  | .out => do
    let stream ← IO.getStdout
    stream.putStr output.text
    stream.flush
  | .err => do
    (← IO.getStderr).putStr output.text

/-- Why a file cannot be read, by what the system says of it. -/
def fileError : IO.Error → FileError
  | .noFileOrDirectory .. => .missing
  | .permissionDenied .. => .denied
  | .inappropriateType _ 21 _ => .folder
  | .inappropriateType .. => .notFolder
  | .invalidArgument _ _ "name too long" => .tooLong
  | e => .other (toString e)

/-- Read a file. -/
def read (path : String) : IO FileRead := do
  try
    return .ok (← IO.FS.readBinFile path)
  catch e =>
    return .error (fileError e)

/-- The number of instructions between two writings of the log. -/
def slice : Nat := 4096

/-- Write the log and empty it. -/
def flush (s : Session) : IO Session := do
  (Launch.logged s.log.toList).forM write
  return { s with log := #[] }

/-- Run a story slice by slice. -/
partial def advance (budget : Nat) (s : Session) : IO (Stop × Session) := do
  let s ← flush s
  let (stop, s) := s.advance (min budget slice)
  if stop = .budgetSpent ∧ slice < budget then
    advance (budget - slice) s
  else
    return (stop, s)

end ZMachine.Main

open ZMachine in
/-- Run a command. -/
def main (arguments : List String) : IO UInt32 := do
  let named := match arguments with
    | [] => []
    | story :: rest =>
      match Options.parse story rest with
      | .ok options => story :: options.config.toList
      | .error _ => []
  let files ← named.mapM fun path => do return (path, ← Main.read path)
  let world : World := {
    program := "zcore"
    logFilter := ← IO.getEnv "RUST_LOG"
    read := fun path => (files.lookup path).getD (.error .missing)
  }
  match Launch.prepare world arguments with
  | .finished output code =>
    output.forM Main.write
    return code.toUInt32
  | .ready output session limit =>
    output.forM Main.write
    let (stop, last) ← Main.advance (limit.getD Session.unlimited) session.announce
    let (result, last) := last.report session.machine.executed stop
    let (rest, code) := Launch.conclude result last
    rest.forM Main.write
    return code.toUInt32
