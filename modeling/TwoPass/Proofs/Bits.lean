import TwoPass.Encoding
import TwoPass.Proofs.Numerals

/-!
# Bits and the text they come from

The address field of an indexed operand is made by way of bits: the digits of the
address are expanded, the leading bit is set, and the bits are read back as a
number. This module follows the value through these steps. Four bits stand for a
digit, so bits and digits have the same value (`Bits.value_ofHex`). They go into a word
of 64 bits one by one, and the word keeps the low end of their value
(`Bits.toHex_eq`). Setting the leading bit sets the highest bit of the value
(`indexedField_eq_ok`). Since that bit is set, the field is as long as the text it was
made from (`length_indexedField`).

Before that come the few facts about the length of a text that say how large its
value can be.
-/

namespace TwoPass

namespace Hex

/-! ## Length and value -/

/-- Every character of a text is a digit. -/
def AllDigits (text : String) : Prop := ∀ c ∈ text.toList, (digit? c).isSome

theorem IsNumeral.allDigits {text : String} (h : IsNumeral text) : AllDigits text := h.2.1

theorem digitValue_lt (c : Char) : digitValue c < 16 := by
  unfold digitValue digit?
  simp only [Char.le_def, UInt32.le_iff_toNat_le]
  split
  · next hc =>
    have hhigh : c.toNat ≤ 57 := hc.2
    show c.toNat - 48 < 16
    omega
  · split
    · next hc =>
      have hhigh : c.toNat ≤ 70 := hc.2
      show c.toNat - 65 + 10 < 16
      omega
    · split
      · next hc =>
        have hhigh : c.toNat ≤ 102 := hc.2
        show c.toNat - 97 + 10 < 16
        omega
      · decide

/-- A text has a value below sixteen to the power of its length. -/
theorem value_lt_pow (text : String) : value text < 16 ^ text.length := by
  have h := Nat.ofDigits_lt_base_pow_length (b := 16) (l := (text.toList.map digitValue).reverse)
    (by decide) (fun d hd => by
      obtain ⟨c, -, rfl⟩ := List.mem_map.mp (List.mem_reverse.mp hd)
      exact digitValue_lt c)
  rwa [List.length_reverse, List.length_map, String.length_toList] at h

theorem ne_empty_of_length_pos {text : String} (h : 0 < text.length) : text ≠ "" :=
  fun hempty => absurd (hempty ▸ h) (by decide)

/-- **A text of at most eight digits is a numeral.** -/
theorem isNumeral_of_length_le {text : String} (hne : text ≠ "") (hdigits : AllDigits text)
    (hlen : text.length ≤ 8) : IsNumeral text :=
  ⟨hne, hdigits, (value_lt_pow text).trans_le (Nat.pow_le_pow_right (by decide) hlen)⟩

theorem AllDigits.append {a b : String} (ha : AllDigits a) (hb : AllDigits b) :
    AllDigits (a ++ b) := by
  intro c hc
  rw [String.toList_append, List.mem_append] at hc
  exact hc.elim (ha c) (hb c)

/-- Digits written in a given number are digits. -/
theorem allDigits_fixed (w v : Nat) : AllDigits (String.ofList (fixed w v)) := by
  intro c hc
  rw [String.toList_ofList] at hc
  obtain ⟨d, hd, rfl⟩ := mem_fixed hc
  rw [digit?_digitChar hd]
  rfl

theorem allDigits_render (v : Nat) : AllDigits (render v) := allDigits_fixed _ v

/-- Zeros behind digits make digits. -/
theorem AllDigits.padRight {text : String} (h : AllDigits text) (w : Nat) :
    AllDigits (padRight text w) := by
  intro c hc
  rw [Hex.padRight, String.toList_ofList, List.rightpad, List.mem_append] at hc
  rcases hc with hc | hc
  · exact h c hc
  · rw [List.eq_of_mem_replicate hc]
    decide

/-- Zeros before digits make digits. -/
theorem AllDigits.leftpad {text : String} (h : AllDigits text) (w : Nat) :
    AllDigits (String.ofList (text.toList.leftpad w '0')) := by
  intro c hc
  rw [String.toList_ofList, List.leftpad, List.mem_append] at hc
  rcases hc with hc | hc
  · rw [List.eq_of_mem_replicate hc]
    decide
  · exact h c hc

/-- A digit is an ASCII character. -/
theorem toNat_le_of_digit {c : Char} (h : (digit? c).isSome) : c.toNat ≤ 127 := by
  unfold digit? at h
  simp only [Char.le_def, UInt32.le_iff_toNat_le] at h
  split at h
  · next hc => exact Nat.le_trans hc.2 (by decide)
  · split at h
    · next hc => exact Nat.le_trans hc.2 (by decide)
    · split at h
      · next hc => exact Nat.le_trans hc.2 (by decide)
      · cases h

/-- A digit is a single byte. -/
theorem utf8Size_of_digit {c : Char} (h : (digit? c).isSome) : c.utf8Size = 1 :=
  Char.utf8Size_eq_one_iff.mpr (UInt32.le_iff_toNat_le.mpr (toNat_le_of_digit h))

/-- **Digits have as many bytes as characters.** -/
theorem AllDigits.utf8ByteSize_eq {text : String} (h : AllDigits text) :
    text.utf8ByteSize = text.length := by
  obtain ⟨chars, rfl⟩ : ∃ chars, text = String.ofList chars := ⟨_, String.ofList_toList.symm⟩
  unfold AllDigits at h
  rw [String.toList_ofList] at h
  rw [String.length_ofList]
  induction chars with
  | nil => rfl
  | cons c rest ih =>
    rw [String.ofList_cons, String.utf8ByteSize_append, String.utf8ByteSize_singleton,
      utf8Size_of_digit (h c List.mem_cons_self),
      ih fun d hd => h d (List.mem_cons_of_mem c hd), List.length_cons, Nat.add_comm]

@[simp] theorem length_padRight (text : String) (w : Nat) :
    (padRight text w).length = max w text.length := by
  rw [padRight, String.length_ofList, List.length_rightpad, String.length_toList]

@[simp] theorem length_leftpad (text : String) (w : Nat) :
    (String.ofList (text.toList.leftpad w '0')).length = max w text.length := by
  rw [String.length_ofList, List.length_leftpad, String.length_toList]

/-- Zeros before a numeral make a numeral. -/
theorem IsNumeral.leftpad {text : String} (h : IsNumeral text) (w : Nat) :
    IsNumeral (String.ofList (text.toList.leftpad w '0')) := by
  refine ⟨ne_empty_of_length_pos ?_, h.allDigits.leftpad w, ?_⟩
  · have hpos : text.length ≠ 0 := fun hzero => h.1 (String.length_eq_zero_iff.mp hzero)
    rw [length_leftpad]
    omega
  · rw [value_leftpad]
    exact h.2.2

/-- At most eight digits, filled up to six with zeros behind them, are a
numeral. -/
theorem isNumeral_padRight {text : String} (h : AllDigits text) (hlen : text.length ≤ 8) :
    IsNumeral (padRight text codeDigits) := by
  have hcode : codeDigits = 6 := rfl
  refine isNumeral_of_length_le (ne_empty_of_length_pos ?_) (h.padRight codeDigits) ?_
  · rw [length_padRight]
    omega
  · rw [length_padRight]
    omega

@[simp] theorem length_render (v : Nat) : (render v).length = width v := by
  rw [render, String.length_ofList, length_fixed]

/-- **The shortest spelling has as many digits as the value needs.** -/
theorem width_le_iff {v w : Nat} (hw : 0 < w) : width v ≤ w ↔ v < 16 ^ w := by
  constructor
  · intro h
    exact (lt_pow_width v).trans_le (Nat.pow_le_pow_right (by decide) h)
  · intro h
    by_cases hv : v = 0
    · subst hv
      exact hw
    · have hlt := (Nat.pow_lt_pow_iff_right (by decide)).mp ((pow_le_of_ne_zero hv).trans_lt h)
      exact Nat.succ_le_of_lt hlt

/-- A value whose leading digit is the one at position `w` is spelt in `w + 1`
digits. -/
theorem width_eq {v w : Nat} (hlow : 16 ^ w ≤ v) (hhigh : v < 16 ^ (w + 1)) :
    width v = w + 1 := by
  refine le_antisymm ((width_le_iff w.succ_pos).mpr hhigh) (Nat.lt_of_not_le fun hle => ?_)
  have hw : 0 < w := Nat.lt_of_lt_of_le (Nat.succ_pos _) hle
  exact absurd ((width_le_iff hw).mp hle) (Nat.not_lt_of_le hlow)

end Hex

namespace Bits

/-! ## The value of bits -/

/-- The number a sequence of bits denotes. -/
def value (bits : Bits) : Nat :=
  bits.foldl (fun value bit => 2 * value + bit.toNat) 0

/-- Bits read behind a number move it up by their length. -/
theorem foldl_eq (bits : Bits) (n : Nat) :
    bits.foldl (fun value bit => 2 * value + bit.toNat) n = n * 2 ^ bits.length + bits.value := by
  induction bits generalizing n with
  | nil => simp [value]
  | cons b rest ih =>
    rw [value, List.foldl_cons, List.foldl_cons, ih, ih (2 * 0 + b.toNat), List.length_cons,
      pow_succ]
    ring

theorem value_cons (b : Bool) (rest : Bits) :
    value (b :: rest) = b.toNat * 2 ^ rest.length + rest.value := by
  rw [value, List.foldl_cons, foldl_eq, Nat.mul_zero, Nat.zero_add]

theorem value_append (a b : Bits) : value (a ++ b) = a.value * 2 ^ b.length + b.value := by
  rw [value, List.foldl_append, foldl_eq]
  rfl

theorem value_lt (bits : Bits) : bits.value < 2 ^ bits.length := by
  induction bits with
  | nil => decide
  | cons b rest ih =>
    have hb : b.toNat ≤ 1 := b.toNat_le
    have hmul := Nat.mul_le_mul_right (2 ^ rest.length) hb
    rw [value_cons, List.length_cons, pow_succ]
    omega

/-- The four bits of a digit have its value. -/
theorem value_ofDigit {d : Nat} (h : d < 16) : value (ofDigit d) = d := by
  have hall : ∀ d < 16, value (ofDigit d) = d := by decide
  exact hall d h

theorem length_flatMap_ofDigit (digits : List Nat) :
    (digits.flatMap ofDigit).length = 4 * digits.length := by
  induction digits with
  | nil => rfl
  | cons d rest ih =>
    rw [List.flatMap_cons, List.length_append, ih, List.length_cons]
    show 4 + _ = _
    omega

theorem value_flatMap_ofDigit {digits : List Nat} (h : ∀ d ∈ digits, d < 16) :
    value (digits.flatMap ofDigit) = Nat.ofDigits 16 digits.reverse := by
  induction digits with
  | nil => rfl
  | cons d rest ih =>
    rw [List.flatMap_cons, value_append, value_ofDigit (h d List.mem_cons_self),
      ih fun x hx => h x (List.mem_cons_of_mem d hx), length_flatMap_ofDigit, List.reverse_cons,
      Nat.ofDigits_append, List.length_reverse, Nat.ofDigits_singleton, pow_mul]
    ring

/-- **Every text of digits has bits**, four for each digit, and they have its
value. -/
theorem value_ofHex {text : String} (hne : text ≠ "") (hdigits : Hex.AllDigits text) :
    ∃ bits, ofHex text = .ok bits ∧ bits.length = 4 * text.length
      ∧ bits.value = Hex.value text := by
  refine ⟨(text.toList.map Hex.digitValue).flatMap ofDigit, ?_, ?_, ?_⟩
  · rw [ofHex, Hex.digits?_eq_some_iff.mpr ⟨hne, hdigits, rfl⟩]
  · rw [length_flatMap_ofDigit, List.length_map, String.length_toList]
  · refine value_flatMap_ofDigit fun d hd => ?_
    obtain ⟨c, -, rfl⟩ := List.mem_map.mp hd
    exact Hex.digitValue_lt c

/-! ## The word that bits leave -/

/-- One bit more doubles the word and counts one, as far as 64 bits hold it. -/
theorem toNat_shiftIn (word : UInt64) (bit : Bool) :
    (shiftIn word bit).toNat = (2 * word.toNat + bit.toNat) % 2 ^ 64 := by
  have hshift : (word <<< 1).toNat = 2 ^ 1 * (word.toNat % 2 ^ 63) := by
    rw [UInt64.toNat_shiftLeft, Nat.shiftLeft_eq]
    show word.toNat * 2 ^ 1 % 2 ^ 64 = _
    omega
  have hbit : bit.toUInt64.toNat = bit.toNat := by cases bit <;> rfl
  -- the low end of the shifted word is free, so that nothing is carried
  rw [shiftIn, UInt64.toNat_or, hshift, hbit,
    ← Nat.two_pow_add_eq_or_of_lt (Nat.lt_succ_of_le bit.toNat_le)]
  have hle := bit.toNat_le
  omega

/-- A word that holds the low end of a number holds it after any bits. -/
theorem toNat_foldl_shiftIn (bits : Bits) {word : UInt64} {n : Nat}
    (h : word.toNat = n % 2 ^ 64) :
    (bits.foldl shiftIn word).toNat
      = bits.foldl (fun value bit => 2 * value + bit.toNat) n % 2 ^ 64 := by
  induction bits generalizing word n with
  | nil => exact h
  | cons bit rest ih =>
    refine ih ?_
    show _ = (2 * n + bit.toNat) % 2 ^ 64
    rw [toNat_shiftIn, h]
    omega

/-- **The word that bits leave is the low end of their value.** -/
theorem toHex_eq (bits : Bits) : bits.toHex = Hex.render (bits.value % 2 ^ 64) :=
  congrArg Hex.render (toNat_foldl_shiftIn bits rfl)

/-- Setting the leading bit of some bits sets the highest bit of their value. -/
theorem value_set_head {bits : Bits} {n : Nat} (h : bits.length = n + 1) :
    value (true :: bits.tail) = 2 ^ n + bits.value % 2 ^ n := by
  cases bits with
  | nil => cases h
  | cons b rest =>
    have hlen : rest.length = n := Nat.succ.inj h
    have hlt : value rest < 2 ^ n := hlen ▸ value_lt rest
    rw [List.tail_cons, value_cons, value_cons, hlen, Bool.toNat_true, Nat.one_mul,
      Nat.mul_comm, Nat.mul_add_mod, Nat.mod_eq_of_lt hlt]

end Bits

/-! ## Address fields -/

/-- How many bits an address field has behind its leading one. -/
def fieldBits (address : String) : Nat := 4 * max fieldDigits address.length - 1

/-- **The address field of an indexed operand** is the value of the address with the
highest bit of the field set, as far as a word of 64 bits holds it. -/
theorem indexedField_eq_ok {address : String} (h : Hex.IsNumeral address) :
    indexedField address = .ok (Hex.render
      ((2 ^ fieldBits address + Hex.value address % 2 ^ fieldBits address) % 2 ^ 64)) := by
  have hpad : Hex.padLeft address fieldDigits
      = .ok (String.ofList (address.toList.leftpad fieldDigits '0')) :=
    Hex.padLeft_eq_ok_iff.mpr ⟨h, rfl⟩
  have hlen := Hex.length_leftpad address fieldDigits
  have hvalue := Hex.value_leftpad address fieldDigits
  have hdigits := h.allDigits.leftpad fieldDigits
  generalize String.ofList (address.toList.leftpad fieldDigits '0') = field at *
  have hfour : 4 ≤ field.length := hlen ▸ Nat.le_max_left fieldDigits address.length
  obtain ⟨bits, hbits, hcount, hbitsValue⟩ :=
    Bits.value_ofHex (Hex.ne_empty_of_length_pos (by omega)) hdigits
  have hsucc : bits.length = fieldBits address + 1 := by
    rw [hcount, hlen, fieldBits]
    omega
  rw [indexedField, hpad]
  show (Bits.ofHex field >>= fun bits => pure (Bits.toHex (true :: bits.tail))) = _
  rw [hbits]
  show Except.ok (Bits.toHex (true :: bits.tail)) = _
  rw [Bits.toHex_eq, Bits.value_set_head hsucc, hbitsValue, hvalue]

/-- **An address field is as long as the address**, and at least four digits long.
The address has at most sixteen digits, so that the field fits its word. -/
theorem length_indexedField {address field : String} (h : Hex.IsNumeral address)
    (hlen : address.length ≤ 16) (hfield : indexedField address = .ok field) :
    field.length = max fieldDigits address.length ∧ Hex.AllDigits field := by
  rw [indexedField_eq_ok h] at hfield
  cases hfield
  refine ⟨?_, Hex.allDigits_render _⟩
  obtain ⟨w, hw⟩ : ∃ w, max fieldDigits address.length = w + 1 :=
    Nat.exists_eq_succ_of_ne_zero (by unfold fieldDigits; omega)
  have hbits : fieldBits address = 4 * w + 3 := by
    rw [fieldBits, hw]
    omega
  have hword : w + 1 ≤ 16 := hw ▸ Nat.max_le.mpr ⟨by decide, hlen⟩
  have hlow : 16 ^ w = 2 ^ (4 * w) := (pow_mul 2 4 w).symm
  have hhigh : 16 ^ (w + 1) = 2 ^ (4 * w + 3) + 2 ^ (4 * w + 3) := by
    rw [pow_succ, hlow, pow_add]
    ring
  have hrest : Hex.value address % 2 ^ (4 * w + 3) < 2 ^ (4 * w + 3) :=
    Nat.mod_lt _ (by positivity)
  have hfits : 16 ^ (w + 1) ≤ 2 ^ 64 :=
    (Nat.pow_le_pow_right (by decide) hword).trans_eq (by decide)
  have hlead : 2 ^ (4 * w) ≤ 2 ^ (4 * w + 3) := Nat.pow_le_pow_right (by decide) (by omega)
  rw [hbits, hw, Hex.length_render, Nat.mod_eq_of_lt (by omega)]
  exact Hex.width_eq (by omega) (by omega)

end TwoPass
