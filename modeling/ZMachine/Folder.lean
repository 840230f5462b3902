import ZMachine.File

/-!
# A folder of files

What comes of reading a path from within a folder that holds nothing but given files.  A path is a walk: it starts in the
folder, or at the root if it begins with a slash, and each of its names leads on from the place that the names before it
have led to.

* `Folder.step`: one name of a walk;
* `Folder.read`: the file at the end of it.
-/

namespace ZMachine

/-- Files by name.  Of two files of one name the later counts. -/
structure Folder where
  files : List (String × ByteArray) := []

namespace Folder

/-- Where a walk has come to. -/
inductive Place where
  /-- The folder itself. -/
  | inside
  /-- A folder around it, in which no name is known. -/
  | outside
  | file (bytes : ByteArray)

/-- The bytes that a name may have. -/
def nameLimit : Nat := 255

/-- The bytes that a path may have. -/
def pathLimit : Nat := 4095

/-- The file of a name. -/
def find? (folder : Folder) (name : String) : Option ByteArray :=
  folder.files.reverse.lookup name

/-- The place that a name leads to.  An empty name stands between two slashes or after the last; like a single dot it stays
where it is, but even that only a folder allows. -/
def step (folder : Folder) (place : Place) (name : String) : Except FileError Place :=
  match place, name with
  | .file _, _ => .error .notFolder
  | place, "" => .ok place
  | place, "." => .ok place
  | _, ".." => .ok .outside
  | place, name =>
    if nameLimit < name.utf8ByteSize then
      .error .tooLong
    else
      match place, folder.find? name with
      | .inside, some bytes => .ok (.file bytes)
      | _, _ => .error .missing

/-- The place where a path starts. -/
def start (path : String) : Place :=
  if path.startsWith "/" then .outside else .inside

/-- The outcome of reading the file at a path. -/
def read (folder : Folder) (path : String) : FileRead := do
  if path.contains '\x00' then
    throw .zeroInPath
  else if path.isEmpty then
    throw .missing
  else if pathLimit < path.utf8ByteSize then
    throw .tooLong
  else
    match ← (path.splitOn "/").foldlM folder.step (start path) with
    | .file bytes => return bytes
    | _ => throw .folder

end Folder

end ZMachine
