import ZMachine.Settings.Document
import ZMachine.File
import ZMachine.Text.Quoted

/-!
# Settings

The settings of a run: a limit on its instructions, whether to trace it, and how much to log.  Each is optional, and no
other key is allowed.

* `Settings.ofText`: the settings that a text gives;
* `Settings.load`: those of a file.
-/

namespace ZMachine

/-- The settings of a run. -/
structure Settings where
  /-- The number of instructions after which the run stops. -/
  stepLimit : Option Nat := none
  /-- Whether every instruction, store and call is logged. -/
  trace : Bool := false
  /-- How much is logged, if the environment does not say. -/
  logLevel : Option String := none
deriving DecidableEq, Repr

/-- Why settings cannot be had. -/
inductive SettingsError where
  | unreadable (path : String) (cause : FileError)
  | malformed
deriving DecidableEq, Repr

namespace SettingsError

/-- What is wrong, in words.  Of a malformed text only that it is malformed is kept. -/
def detail : SettingsError → String
  | .unreadable path cause => s!"cannot read {path}: {cause.message}"
  | .malformed => "<toml>"

/-- The error in words. -/
def message (e : SettingsError) : String :=
  "configuration error: " ++ e.detail

/-- The error with its detail in brackets, quoted if it is a sentence. -/
def record (e : SettingsError) : String :=
  match e with
  | .unreadable .. => "Config(" ++ Text.quote e.detail ++ ")"
  | .malformed => "Config(" ++ e.detail ++ ")"

end SettingsError

namespace Settings

/-- The settings with one more item. -/
def insert (s : Settings) (item : Item) : Option Settings :=
  match String.ofList item.key, item.value with
  | "step_limit", .integer n => if 0 ≤ n then some { s with stepLimit := some n.toNat } else none
  | "trace", .boolean b => some { s with trace := b }
  | "log_level", .text level => some { s with logLevel := some (String.ofList level) }
  | _, _ => none

/-- The settings that items give.  No key may come twice. -/
def ofItems (items : List Item) : Option Settings :=
  if (items.map Item.key).Nodup then items.foldlM insert {} else none

/-- The settings that a text gives. -/
def ofText (text : String) : Except SettingsError Settings :=
  match (Document.parse text.toList).bind ofItems with
  | some s => .ok s
  | none => .error .malformed

/-- The settings of a file. -/
def load (path : String) (file : FileRead) : Except SettingsError Settings :=
  match file.text with
  | .ok text => ofText text
  | .error cause => .error (.unreadable path cause)

end Settings

end ZMachine
