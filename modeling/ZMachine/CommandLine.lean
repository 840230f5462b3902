/-!
# The command line

A command names a story and then options, in any order and as often as one likes.  Of an option that takes a value the
last one counts.

* `Options.parse`: the options of a command, or the error of the first argument that cannot be read;
* `stepCount?`: the numbers that `--steps` accepts.
-/

namespace ZMachine

/-- What a command asks for. -/
structure Options where
  story : String
  steps : Option Nat := none
  trace : Bool := false
  config : Option String := none
  header : Bool := false
  coverage : Bool := false
deriving DecidableEq, Repr

/-- What is wrong with a command. -/
inductive UsageError where
  | stepsMissing
  | stepsInvalid (value : String)
  | configMissing
  | unknownOption (argument : String)
deriving DecidableEq, Repr

/-- The error in words. -/
def UsageError.message : UsageError → String
  | .stepsMissing => "--steps needs a number"
  | .stepsInvalid value => s!"Invalid step count: {value}"
  | .configMissing => "--config needs a file name"
  | .unknownOption argument => s!"Unknown option: {argument}"

/-- The number that decimal digits give. -/
def decimalValue (digits : List Char) : Nat :=
  digits.foldl (fun n c => 10 * n + (c.toNat - '0'.toNat)) 0

/-- A decimal number of 64 bits; a plus sign may stand before it. -/
def stepCount? (text : String) : Option Nat :=
  let digits := match text.toList with
    | '+' :: rest => rest
    | cs => cs
  let value := decimalValue digits
  if digits ≠ [] ∧ digits.all Char.isDigit ∧ value < 0x10000000000000000 then some value else none

namespace Options

/-- The options with further arguments taken into account, from left to right. -/
def extend (o : Options) : List String → Except UsageError Options
  | [] => .ok o
  | "--steps" :: rest =>
    match rest with
    | [] => .error .stepsMissing
    | value :: rest =>
      match stepCount? value with
      | some n => extend { o with steps := some n } rest
      | none => .error (.stepsInvalid value)
  | "--config" :: rest =>
    match rest with
    | [] => .error .configMissing
    | file :: rest => extend { o with config := some file } rest
  | "--trace" :: rest => extend { o with trace := true } rest
  | "--header" :: rest => extend { o with header := true } rest
  | "--coverage" :: rest => extend { o with coverage := true } rest
  | argument :: _ => .error (.unknownOption argument)

/-- The options of a command: the name of the story and the arguments after it. -/
def parse (story : String) (arguments : List String) : Except UsageError Options :=
  extend { story } arguments

end Options

/-- How to use the program. -/
def usage (program : String) : String :=
  String.join [
    "zcore - decode-and-dispatch core for Z-machine story files\n",
    "\n",
    s!"Usage: {program} <story-file> [--steps N] [--trace] [--config FILE] [--header] [--coverage]\n",
    "\n",
    "  --steps N       stop after N instructions\n",
    "  --trace         log every instruction, store and call\n",
    "  --config FILE   read settings from a TOML file\n",
    "  --header        print the story header and exit\n",
    "  --coverage      list the opcodes this core executes and exit\n",
    "\n",
    "RUST_LOG controls log verbosity, e.g. RUST_LOG=debug\n"]

end ZMachine
