import ZMachine.Settings.Literal

/-!
# Settings files

A settings file is a sequence of lines.  A line is empty or gives a key a value, and may end in a comment.  A mark of byte
order may stand in front of the first line.

`Document.parse` reads the keys and values in their order.
-/

namespace ZMachine.Settings

/-- A key and its value. -/
structure Item where
  key : List Char
  value : Literal
deriving DecidableEq, Repr

namespace Document

/-- The characters of a key without quotes. -/
def isKeyChar (c : Char) : Bool :=
  c.isAlphanum || c = '_' || c = '-'

/-- A key: bare, or a text of one line in quotes. -/
def key? : List Char → Option (List Char × List Char)
  | '"' :: rest => quoted? rest
  | '\'' :: rest => verbatim? rest
  | cs =>
    match cs.takeWhile isKeyChar with
    | [] => none
    | key => some (key, cs.dropWhile isKeyChar)

/-- A key, the sign of equality and a value, with blanks around the sign. -/
def item? (cs : List Char) : Option (Item × List Char) := do
  let (key, rest) ← key? cs
  match rest.dropWhile isBlank with
  | '=' :: rest =>
    let (value, rest) ← Literal.read (rest.dropWhile isBlank)
    some (⟨key, value⟩, rest)
  | _ => none

/-- The characters from the end of a comment on, if one starts here. -/
def skipComment : List Char → List Char
  | '#' :: rest => rest.dropWhile isPlain
  | cs => cs

/-- What comes after the content of a line: blanks, a comment, and then the next line or the end. -/
inductive LineEnd where
  | next (rest : List Char)
  | done
  | junk
deriving DecidableEq, Repr

/-- How the line goes on after its content. -/
def lineEnd (cs : List Char) : LineEnd :=
  match skipComment (cs.dropWhile isBlank) with
  | [] => .done
  | rest =>
    match lineBreak? rest with
    | some rest => .next rest
    | none => .junk

/-- The content of a line, if there is any: nothing comes before a comment, a line break or the end. -/
def content (cs : List Char) : Option (List Item × List Char) :=
  match cs with
  | [] | '#' :: _ | '\n' :: _ | '\r' :: _ => some ([], cs)
  | _ => (item? cs).map fun (item, rest) => ([item], rest)

/-- The items of the lines, at most as many lines as the first argument says. -/
def lines : Nat → List Char → Option (List Item)
  | 0, _ => none
  | count + 1, cs => do
    let (items, rest) ← content (cs.dropWhile isBlank)
    match lineEnd rest with
    | .done => some items
    | .next rest => do
      let more ← lines count rest
      some (items ++ more)
    | .junk => none

/-- The items of a settings file.  Every line but the last ends in a character of its own, so there are at most as many
lines as characters and one more. -/
def parse (cs : List Char) : Option (List Item) :=
  let cs := match cs with
    | '\ufeff' :: rest => rest
    | _ => cs
  lines (cs.length + 1) cs

end Document

end ZMachine.Settings
