/-!
# Reading files

What comes of asking for a file: its bytes, or the reason why there are none.
-/

namespace ZMachine

/-- Why a file cannot be read. -/
inductive FileError where
  /-- Nothing bears the name. -/
  | missing
  | denied
  /-- The path goes on beyond a file as if it were a folder. -/
  | notFolder
  /-- The path ends at a folder. -/
  | folder
  /-- A name or the whole path has more bytes than it may have. -/
  | tooLong
  /-- The path has a zero in it, which no name has. -/
  | zeroInPath
  /-- The bytes are not a text in UTF-8. -/
  | notText
  | other (reason : String)
deriving DecidableEq, Repr

namespace FileError

/-- The error in words. -/
def message : FileError → String
  | .missing => "No such file or directory (os error 2)"
  | .denied => "Permission denied (os error 13)"
  | .notFolder => "Not a directory (os error 20)"
  | .folder => "Is a directory (os error 21)"
  | .tooLong => "File name too long (os error 36)"
  | .zeroInPath => "file name contained an unexpected NUL byte"
  | .notText => "stream did not contain valid UTF-8"
  | .other reason => reason

/-- Whether the error comes up only once the file is open.  A folder can be opened like a file. -/
def isAfterOpening : FileError → Bool
  | .folder | .notText => true
  | _ => false

end FileError

/-- The outcome of reading a file. -/
abbrev FileRead := Except FileError ByteArray

/-- The file as a text in UTF-8. -/
def FileRead.text (file : FileRead) : Except FileError String := do
  match String.fromUTF8? (← file) with
  | some text => return text
  | none => throw .notText

end ZMachine
