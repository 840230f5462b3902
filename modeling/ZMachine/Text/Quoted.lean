import ZMachine.Text.Hidden
import ZMachine.Text.Number

/-!
# Quoted text

A text between double quotes, with escapes for the quote itself, the backslash, and characters that are not shown.
-/

namespace ZMachine.Text

/-- Whether a character is written as it is. -/
def isVisible (c : Char) : Bool :=
  32 ≤ c.toNat && !isHidden c

/-- A character within quotes. -/
def quoteChar (c : Char) : String :=
  match c with
  | '\x00' => "\\0"
  | '\t' => "\\t"
  | '\n' => "\\n"
  | '\r' => "\\r"
  | '"' => "\\\""
  | '\\' => "\\\\"
  | _ => if isVisible c then c.toString else "\\u\x7b" ++ hex 1 c.toNat ++ "\x7d"

/-- A text within quotes. -/
def quote (text : String) : String :=
  "\"" ++ String.join (text.toList.map quoteChar) ++ "\""

end ZMachine.Text
