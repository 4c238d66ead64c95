/-!
# Decimal counts

The count of a reservation is written in decimal: ASCII digits, with one plus
sign allowed in front, and a value that fits a word of 64 bits. Leading zeros
are free.
-/

namespace TwoPass.Decimal

/-- The bound every count stays below, `2 ^ 64`. -/
def bound : Nat := 0x10000000000000000

/-- The value of one ASCII digit. -/
def digit? (c : Char) : Option Nat :=
  if '0' ≤ c ∧ c ≤ '9' then some (c.toNat - '0'.toNat) else none

/-- The value of a sequence of digits, the most significant first. -/
def ofDigits (digits : List Nat) : Nat :=
  digits.foldl (fun value digit => 10 * value + digit) 0

/-- The value of a non-empty sequence of ASCII digits, if it is below the
bound. -/
def ofChars? : List Char → Option Nat
  | [] => none
  | chars => do
    let digits ← chars.mapM digit?
    if ofDigits digits < bound then some (ofDigits digits) else none

/-- The value of a count. -/
def count? (text : String) : Option Nat :=
  match text.toList with
  | '+' :: chars => ofChars? chars
  | chars => ofChars? chars

end TwoPass.Decimal
