/-!
# Hexadecimal numerals

An address or a piece of object code is written in hexadecimal, and it keeps
the spelling it was given: `0A`, `a` and `A` are three texts of one value.
This module reads such a text, writes a value back in its shortest uppercase
spelling, and does the little arithmetic the assembler asks for.

A numeral is a non-empty text of ASCII hexadecimal digits whose value is
below `2 ^ 32`. Leading zeros are free, so the bound is on the value and not
on the length. A sum is exact: it may reach past the bound, and is then a
text that no longer reads as a numeral.

`Hex.fixed` writes a value in a given number of digits, by recursion on that
number; `Hex.render` chooses the number, which is one more than the position
of the leading digit. Both are defined for every natural number.
-/

namespace TwoPass

/-- What can go wrong in hexadecimal arithmetic. -/
inductive HexFault where
  /-- The text is not a numeral. -/
  | malformed (text : String)
  /-- The difference of the two texts lies below zero. -/
  | negative (minuend subtrahend : String)
deriving DecidableEq, Repr

/-- The wording of a fault, which quotes the texts as they were given. -/
def HexFault.message : HexFault → String
  | .malformed text => s!"`{text}` is not a valid hexadecimal string"
  | .negative minuend subtrahend =>
    s!"{minuend} - {subtrahend} yields a negative address"

namespace Hex

/-- The bound every numeral stays below, `2 ^ 32`. -/
def bound : Nat := 0x100000000

/-- The value of one ASCII digit, in either case. -/
def digit? (c : Char) : Option Nat :=
  if '0' ≤ c ∧ c ≤ '9' then some (c.toNat - '0'.toNat)
  else if 'A' ≤ c ∧ c ≤ 'F' then some (c.toNat - 'A'.toNat + 10)
  else if 'a' ≤ c ∧ c ≤ 'f' then some (c.toNat - 'a'.toNat + 10)
  else none

/-- The digit of a value below sixteen, in upper case. -/
def digitChar (d : Nat) : Char :=
  if d < 10 then Char.ofNat ('0'.toNat + d) else Char.ofNat ('A'.toNat + (d - 10))

/-- The value of a sequence of digits, the most significant first. -/
def ofDigits (digits : List Nat) : Nat :=
  digits.foldl (fun value digit => 16 * value + digit) 0

/-- The digits of a non-empty text that holds nothing else, of any length. -/
def digits? (text : String) : Option (List Nat) :=
  match text.toList with
  | [] => none
  | chars => chars.mapM digit?

/-- The value of a numeral. -/
def parse (text : String) : Except HexFault Nat :=
  match digits? text with
  | none => .error (.malformed text)
  | some digits =>
    if ofDigits digits < bound then .ok (ofDigits digits)
    else .error (.malformed text)

/-- The last `width` digits of a value. -/
def fixed : (width value : Nat) → List Char
  | 0, _ => []
  | width + 1, value => fixed width (value / 16) ++ [digitChar (value % 16)]

/-- How many digits the shortest spelling of a value has. -/
def width (value : Nat) : Nat := value.log2 / 4 + 1

/-- The shortest spelling of a value, in upper case; zero is one digit. -/
def render (value : Nat) : String := String.ofList (fixed (width value) value)

/-- The exact sum of two numerals. -/
def add (a b : String) : Except HexFault String := do
  let x ← parse a
  let y ← parse b
  return render (x + y)

/-- The exact difference of two numerals, the second no larger than the
first. -/
def sub (a b : String) : Except HexFault String := do
  let x ← parse a
  let y ← parse b
  if y ≤ x then return render (x - y) else throw (.negative a b)

/-- A numeral with zeros put in front until it has `width` digits. The
spelling is kept otherwise, and a longer text stays as it is. -/
def padLeft (text : String) (width : Nat) : Except HexFault String := do
  let _ ← parse text
  return String.ofList (text.toList.leftpad width '0')

/-- Any text with zeros put behind it until it has `width` characters. -/
def padRight (text : String) (width : Nat) : String :=
  String.ofList (text.toList.rightpad width '0')

end Hex

end TwoPass
