/-!
# Numbers as text

Reports write addresses and words in lower-case hexadecimal, filled with zeros to a least width, and event counters in
decimal, filled likewise.  A number longer than the width is written in full.

* `hex w n`: at least `w` hexadecimal digits;
* `marked w n`: the same after the mark `0x`;
* `decimal w n`: at least `w` decimal digits;
* `withSign n`: a decimal number that always shows its sign.
-/

namespace ZMachine.Text

/-- Zeros in front of `digits` until there are `width` of them. -/
def zeroFill (width : Nat) (digits : List Char) : List Char :=
  List.replicate (width - digits.length) '0' ++ digits

/-- At least `width` lower-case hexadecimal digits. -/
def hex (width n : Nat) : String :=
  String.ofList (zeroFill width (Nat.toDigits 16 n))

/-- The mark `0x` and at least `width` lower-case hexadecimal digits. -/
def marked (width n : Nat) : String :=
  "0x" ++ hex width n

/-- At least `width` decimal digits. -/
def decimal (width n : Nat) : String :=
  String.ofList (zeroFill width (Nat.toDigits 10 n))

/-- Decimal digits after a sign; zero counts as positive. -/
def withSign (n : Int) : String :=
  if n < 0 then s!"-{n.natAbs}" else s!"+{n.natAbs}"

/-- The items between brackets, a comma and a blank between neighbours. -/
def bracketed (items : List String) : String :=
  "[" ++ ", ".intercalate items ++ "]"

/-- Words in a bracketed list, each as four hexadecimal digits. -/
def hexWords (words : List UInt16) : String :=
  bracketed (words.map fun w => hex 4 w.toNat)

/-- Words in a bracketed list, each in decimal. -/
def decimalWords (words : List UInt16) : String :=
  bracketed (words.map fun w => decimal 1 w.toNat)

/-- Blanks after `text` until it has `width` characters. -/
def padRight (width : Nat) (text : String) : String :=
  text ++ String.ofList (List.replicate (width - text.length) ' ')

end ZMachine.Text
