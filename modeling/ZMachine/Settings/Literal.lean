/-!
# Literals of a settings file

A value in a settings file is an integer, a truth value or a text.

* An integer is decimal, with an optional sign and no leading zero, or has the mark `0x`, `0o` or `0b` of another base and
  no sign.  Single underscores may stand between digits.  It has to fit in 64 bits with sign.
* A text stands between double quotes, where a backslash starts an escape, or between single quotes, where nothing does.
  Quotes in threes enclose a text of several lines, which loses a line break right after the opening quotes.

`Literal.read` reads a literal at the front of some characters and returns the rest.
-/

namespace ZMachine.Settings

/-- A value in a settings file. -/
inductive Literal where
  | integer (value : Int)
  | boolean (value : Bool)
  | text (value : List Char)
deriving DecidableEq, Repr

/-! ### Characters -/

/-- Blanks within a line. -/
def isBlank (c : Char) : Bool :=
  c = ' ' || c = '\t'

/-- Characters that may stand in a comment or a text: all but the control characters, the tabulator excepted. -/
def isPlain (c : Char) : Bool :=
  c = '\t' || (' ' ≤ c && c ≠ '\x7f')

/-- The characters after a line break, if there is one at the front. -/
def lineBreak? : List Char → Option (List Char)
  | '\n' :: rest => some rest
  | '\r' :: '\n' :: rest => some rest
  | _ => none

/-- The characters from the first that is neither blank nor part of a line break. -/
def skipSpace : List Char → List Char
  | '\n' :: rest => skipSpace rest
  | '\r' :: '\n' :: rest => skipSpace rest
  | c :: rest => if isBlank c then skipSpace rest else c :: rest
  | [] => []

/-- The value of a hexadecimal digit. -/
def digitValue? (c : Char) : Option Nat :=
  if '0' ≤ c ∧ c ≤ '9' then some (c.toNat - '0'.toNat)
  else if 'a' ≤ c ∧ c ≤ 'f' then some (c.toNat - 'a'.toNat + 10)
  else if 'A' ≤ c ∧ c ≤ 'F' then some (c.toNat - 'A'.toNat + 10)
  else none

/-- The value of a digit in a base up to sixteen. -/
def digitIn? (base : Nat) (c : Char) : Option Nat :=
  (digitValue? c).filter fun d => d < base

/-! ### Integers -/

/-- Further digits of a number whose first digits have the value `value`; an underscore counts only before a digit. -/
def moreDigits (base value : Nat) : List Char → Nat × List Char
  | '_' :: c :: rest =>
    match digitIn? base c with
    | some d => moreDigits base (base * value + d) rest
    | none => (value, '_' :: c :: rest)
  | c :: rest =>
    match digitIn? base c with
    | some d => moreDigits base (base * value + d) rest
    | none => (value, c :: rest)
  | [] => (value, [])

/-- A number in a base, of at least one digit. -/
def digits? (base : Nat) : List Char → Option (Nat × List Char)
  | c :: rest => (digitIn? base c).map fun d => moreDigits base d rest
  | [] => none

/-- A decimal number without a leading zero. -/
def decimal? : List Char → Option (Nat × List Char)
  | '0' :: rest => some (0, rest)
  | cs => digits? 10 cs

/-- An integer, with its sign or the mark of its base. -/
def integer? : List Char → Option (Int × List Char)
  | '0' :: 'x' :: rest => (digits? 16 rest).map fun (n, r) => (n, r)
  | '0' :: 'o' :: rest => (digits? 8 rest).map fun (n, r) => (n, r)
  | '0' :: 'b' :: rest => (digits? 2 rest).map fun (n, r) => (n, r)
  | '-' :: rest => (decimal? rest).map fun (n, r) => (-n, r)
  | '+' :: rest => (decimal? rest).map fun (n, r) => (n, r)
  | cs => (decimal? cs).map fun (n, r) => (n, r)

/-- Whether an integer fits in 64 bits with sign. -/
def fits (n : Int) : Bool :=
  -0x8000000000000000 ≤ n && n < 0x8000000000000000

/-! ### Texts -/

/-- The character with the number that hexadecimal digits give; surrogates and numbers beyond Unicode have none. -/
def scalar? (digits : List Char) : Option Char := do
  let values ← digits.mapM (digitIn? 16)
  let n := values.foldl (fun n d => 16 * n + d) 0
  if n.isValidChar then some (Char.ofNat n) else none

/-- The character of an escape, given what follows the backslash. -/
def escape? : List Char → Option (Char × List Char)
  | 'b' :: rest => some ('\x08', rest)
  | 't' :: rest => some ('\t', rest)
  | 'n' :: rest => some ('\n', rest)
  | 'f' :: rest => some ('\x0c', rest)
  | 'r' :: rest => some ('\r', rest)
  | '"' :: rest => some ('"', rest)
  | '\\' :: rest => some ('\\', rest)
  | 'u' :: a :: b :: c :: d :: rest => (scalar? [a, b, c, d]).map (·, rest)
  | 'U' :: a :: b :: c :: d :: e :: f :: g :: h :: rest => (scalar? [a, b, c, d, e, f, g, h]).map (·, rest)
  | _ => none

/-- What follows an escape is no longer than what it is read from. -/
theorem length_escape? {cs rest : List Char} {c : Char} (h : escape? cs = some (c, rest)) :
    rest.length ≤ cs.length := by
  unfold escape? at h
  split at h <;> simp only [Option.map_eq_some_iff, Option.some.injEq, Prod.mk.injEq, reduceCtorEq] at h
  all_goals simp only [List.length_cons]
  all_goals grind

theorem length_skipSpace (cs : List Char) : (skipSpace cs).length ≤ cs.length := by
  fun_induction skipSpace cs <;> simp_all <;> omega

/-- The rest of a text between double quotes. -/
def quoted? (cs : List Char) : Option (List Char × List Char) :=
  match cs with
  | [] => none
  | '"' :: rest => some ([], rest)
  | '\\' :: rest =>
    match _h : escape? rest with
    | some (c, rest') => (quoted? rest').map fun (text, r) => (c :: text, r)
    | none => none
  | c :: rest => if isPlain c then (quoted? rest).map fun (text, r) => (c :: text, r) else none
termination_by cs.length
decreasing_by
  · have := length_escape? _h
    simp only [List.length_cons]
    omega
  · simp only [List.length_cons]
    omega

/-- The rest of a text between single quotes. -/
def verbatim? : List Char → Option (List Char × List Char)
  | [] => none
  | '\'' :: rest => some ([], rest)
  | c :: rest => if isPlain c then (verbatim? rest).map fun (text, r) => (c :: text, r) else none

/-- What follows three closing quotes: up to two more of them belong to the text. -/
def extraQuotes (quote : Char) : List Char → List Char × List Char
  | a :: b :: rest =>
    if a = quote ∧ b = quote then ([a, b], rest) else if a = quote then ([a], b :: rest) else ([], a :: b :: rest)
  | [a] => if a = quote then ([a], []) else ([], [a])
  | [] => ([], [])

/-- Whether a backslash before these characters hides the end of its line. -/
def hidesLineEnd (cs : List Char) : Bool :=
  (lineBreak? (cs.dropWhile isBlank)).isSome

/-- The rest of a text of several lines between double quotes.  A backslash at the end of a line hides the line break and
all space after it; a line break counts as one character however it is written. -/
def quotedLines? (cs : List Char) : Option (List Char × List Char) :=
  match cs with
  | [] => none
  | '"' :: '"' :: '"' :: rest => some (extraQuotes '"' rest)
  | '\\' :: rest =>
    if hidesLineEnd rest then quotedLines? (skipSpace rest)
    else
      match _h : escape? rest with
      | some (c, rest') => (quotedLines? rest').map fun (text, r) => (c :: text, r)
      | none => none
  | '\n' :: rest => (quotedLines? rest).map fun (text, r) => ('\n' :: text, r)
  | '\r' :: '\n' :: rest => (quotedLines? rest).map fun (text, r) => ('\n' :: text, r)
  | c :: rest => if isPlain c then (quotedLines? rest).map fun (text, r) => (c :: text, r) else none
termination_by cs.length
decreasing_by
  · have := length_skipSpace rest
    simp only [List.length_cons]
    omega
  · have := length_escape? _h
    simp only [List.length_cons]
    omega
  all_goals
    simp only [List.length_cons]
    omega

/-- The rest of a text of several lines between single quotes. -/
def verbatimLines? : List Char → Option (List Char × List Char)
  | [] => none
  | '\'' :: '\'' :: '\'' :: rest => some (extraQuotes '\'' rest)
  | '\n' :: rest => (verbatimLines? rest).map fun (text, r) => ('\n' :: text, r)
  | '\r' :: '\n' :: rest => (verbatimLines? rest).map fun (text, r) => ('\n' :: text, r)
  | c :: rest => if isPlain c then (verbatimLines? rest).map fun (text, r) => (c :: text, r) else none

/-- The characters after a line break at the front, or all of them. -/
def dropLineBreak (cs : List Char) : List Char :=
  (lineBreak? cs).getD cs

/-- A text with its quotes. -/
def text? : List Char → Option (List Char × List Char)
  | '"' :: '"' :: '"' :: rest => quotedLines? (dropLineBreak rest)
  | '"' :: rest => quoted? rest
  | '\'' :: '\'' :: '\'' :: rest => verbatimLines? (dropLineBreak rest)
  | '\'' :: rest => verbatim? rest
  | _ => none

/-! ### Literals -/

/-- The literal at the front, with the characters after it. -/
def Literal.read (cs : List Char) : Option (Literal × List Char) :=
  match cs with
  | 't' :: 'r' :: 'u' :: 'e' :: rest => some (.boolean true, rest)
  | 'f' :: 'a' :: 'l' :: 's' :: 'e' :: rest => some (.boolean false, rest)
  | '"' :: _ | '\'' :: _ => (text? cs).map fun (content, rest) => (.text content, rest)
  | _ =>
    match integer? cs with
    | some (n, rest) => if fits n then some (.integer n, rest) else none
    | none => none

end ZMachine.Settings
