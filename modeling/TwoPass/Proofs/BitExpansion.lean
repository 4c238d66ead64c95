import TwoPass.Proofs.ExactArithmetic

/-!
# Texts as bits and back

Expanding a text into bits and reading the bits back are not inverse to each other. The
expansion goes digit by digit and takes a text of any length. Reading back goes bit by bit
through a word of 64 bits, and what it writes is the shortest spelling of the word. So a
round trip forgets the case of the letters and the leading zeros, and of more than sixteen
digits also those in front of the last sixteen.

What it does keep is the number. Four bits stand for a digit, so that the bits have the
value of the text, and the word has the remainder of that value by `2 ^ 64`
(`Bits.toHex_eq`). A numeral is far below that bound, so it is still read as the same
number after the round trip.
-/

namespace TwoPass

namespace Bits

/-- A text that denotes a number has four bits for each digit, and they have the number for
their value. -/
theorem exists_ofHex_of_denotes {text : String} {v : Nat} (h : Hex.Denotes text v) :
    ∃ bits, ofHex text = .ok bits ∧ bits.length = 4 * text.length ∧ bits.value = v := by
  obtain ⟨hne, hall, rfl⟩ := Hex.denotes_iff.mp h
  exact value_ofHex hne hall

/-- Every other text is refused as it was given. -/
theorem ofHex_eq_error {text : String} (h : ¬ ∃ v, Hex.Denotes text v) :
    ofHex text = .error (.malformed text) := by
  unfold ofHex
  split
  · rfl
  · next digits hdigits =>
    obtain ⟨hne, hall, -⟩ := Hex.digits?_eq_some_iff.mp hdigits
    exact absurd ⟨_, Hex.denotes_value hne hall⟩ h

/-- Bits are written as the spelling of the low end of their value. -/
theorem spells_toHex (bits : Bits) : Hex.Spells bits.toHex (bits.value % 2 ^ 64) :=
  Hex.spells_iff.mpr bits.toHex_eq

/-- Bits whose value is below the bound of numerals are written as a numeral. -/
theorem parse_toHex {bits : Bits} (h : bits.value < 2 ^ 32) :
    Hex.parse bits.toHex = .ok bits.value := by
  have hword : bits.value < 2 ^ 64 := h.trans (by decide)
  rw [toHex_eq, Nat.mod_eq_of_lt hword]
  exact Hex.parse_render h

/-- **A text goes to bits and back without losing its number.** Take any text. If it has at
least one character and all of them are hexadecimal digits, it denotes a number `v` and is
expanded into four bits for each digit. Read from the most significant one, these have the
value `v`, and written back they are the spelling of the remainder of `v` by `2 ^ 64`, in
upper case and without leading zeros. Hence a text that is read as a number is read as the
same number after the round trip. A text that is empty or has a character that is no digit
is refused as malformed. -/
theorem expansion_round_trip (text : String) :
    (text ≠ "" ∧ (∀ c ∈ text.toList, c.toUpper ∈ Hex.upperDigits) →
        ∃ v bits, Hex.Denotes text v ∧ ofHex text = .ok bits
          ∧ bits.length = 4 * text.length ∧ bits.value = v
          ∧ Hex.Spells bits.toHex (v % 2 ^ 64))
      ∧ (∀ v, Hex.parse text = .ok v →
        ∃ bits, ofHex text = .ok bits ∧ Hex.parse bits.toHex = .ok v)
      ∧ (¬ (text ≠ "" ∧ ∀ c ∈ text.toList, c.toUpper ∈ Hex.upperDigits) →
        ofHex text = .error (.malformed text)) := by
  rw [← Hex.exists_denotes_iff]
  refine ⟨?_, ?_, ofHex_eq_error⟩
  · rintro ⟨v, hv⟩
    obtain ⟨bits, hbits, hlength, rfl⟩ := exists_ofHex_of_denotes hv
    exact ⟨_, bits, hv, hbits, hlength, rfl, spells_toHex bits⟩
  · intro v hparse
    obtain ⟨hv, hlt⟩ := Hex.parse_eq_ok_iff_denotes.mp hparse
    obtain ⟨bits, hbits, -, rfl⟩ := exists_ofHex_of_denotes hv
    exact ⟨bits, hbits, parse_toHex hlt⟩

/-- Of seventeen digits the leading one drops out, and then the zeros behind it. -/
example : (ofHex "c00000000000000a5").map toHex = .ok "A5" := by decide +kernel

end Bits

end TwoPass
