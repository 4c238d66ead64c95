import TwoPass.Hex.Basic

/-!
# Bits of hexadecimal text

A text of hexadecimal digits spells a sequence of bits, four for each digit
and the most significant first. `Bits.ofHex` expands a text of any length.
`Bits.toHex` goes back through a word of 64 bits, so of a longer sequence it
keeps the low end only.
-/

namespace TwoPass

/-- A sequence of bits, the most significant first. -/
abbrev Bits := List Bool

namespace Bits

/-- The four bits of one digit. -/
def ofDigit (digit : Nat) : Bits :=
  [digit.testBit 3, digit.testBit 2, digit.testBit 1, digit.testBit 0]

/-- The bits of a non-empty text of hexadecimal digits. -/
def ofHex (text : String) : Except HexFault Bits :=
  match Hex.digits? text with
  | none => .error (.malformed text)
  | some digits => .ok (digits.flatMap ofDigit)

/-- A word of 64 bits with one more bit at its low end. The bit at its high
end drops out. -/
def shiftIn (word : UInt64) (bit : Bool) : UInt64 := word <<< 1 ||| bit.toUInt64

/-- The word that is left when all bits have gone in, one after the other. -/
def toWord (bits : Bits) : UInt64 := bits.foldl shiftIn 0

/-- The shortest spelling of the word that the bits leave. -/
def toHex (bits : Bits) : String := Hex.render bits.toWord.toNat

/-- The bits as a text of zeros and ones. -/
def render (bits : Bits) : String :=
  String.ofList (bits.map fun bit => if bit then '1' else '0')

end Bits

end TwoPass
