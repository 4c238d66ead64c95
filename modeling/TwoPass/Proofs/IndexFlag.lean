import TwoPass.Proofs.FixedWidth

/-!
# The index flag

An indexed operand is told from a direct one by a single bit, the leading one of its address
field. The field is not made by arithmetic: the address is filled up with zeros as text, its
digits are expanded into bits, the first bit is set, and the bits are read back into a word
and written without leading zeros. So it has to be shown that no digit gets lost on the way
and that the other bits of the address come through.

Both follow from what the field is as a number: the address with one bit set
(`indexedField_eq_lor`). That bit lies in the leading digit of the field, so the digit is not
zero and the field has its full width. An address below that bit can be read off the field by
clearing it again. An address that has the bit already cannot be told from the one without it.
-/

namespace TwoPass

/-! ## Setting a bit -/

/-- Putting a one before the low bits of a number sets its highest bit. -/
theorem two_pow_add_mod_eq_lor {n v : Nat} (h : v < 2 ^ (n + 1)) :
    2 ^ n + v % 2 ^ n = v ||| 2 ^ n := by
  have hlow : v % 2 ^ n < 2 ^ n := Nat.mod_lt v (Nat.two_pow_pos n)
  have hsum := Nat.two_pow_add_eq_or_of_lt hlow 1
  rw [Nat.mul_one] at hsum
  rw [hsum]
  refine Nat.eq_of_testBit_eq fun i => ?_
  rw [Nat.testBit_or, Nat.testBit_or, Nat.testBit_mod_two_pow, Nat.testBit_two_pow]
  rcases Nat.lt_trichotomy i n with hlt | rfl | hgt
  · simp [hlt, Nat.ne_of_gt hlt]
  · simp
  · have hzero : v.testBit i = false :=
      Nat.testBit_lt_two_pow (h.trans_le (Nat.pow_le_pow_right (by decide) hgt))
    simp [hzero]

/-- The other bits stay as they are. -/
theorem testBit_lor_two_pow_of_ne {v n i : Nat} (h : i ≠ n) :
    (v ||| 2 ^ n).testBit i = v.testBit i := by
  rw [Nat.testBit_or, Nat.testBit_two_pow_of_ne h.symm, Bool.or_false]

/-- With one bit set, two numbers are the same exactly if they agree in all other bits. -/
theorem lor_two_pow_eq_iff {a b n : Nat} :
    a ||| 2 ^ n = b ||| 2 ^ n ↔ ∀ i, i ≠ n → a.testBit i = b.testBit i := by
  constructor
  · intro h i hi
    rw [← testBit_lor_two_pow_of_ne hi, h, testBit_lor_two_pow_of_ne hi]
  · intro h
    refine Nat.eq_of_testBit_eq fun i => ?_
    rw [Nat.testBit_or, Nat.testBit_or, Nat.testBit_two_pow]
    by_cases hi : i = n
    · simp [hi]
    · rw [h i hi]

/-- Clearing the bit gives back a number that did not have it. -/
theorem lor_and_eq_self_iff {n v : Nat} (h : v < 2 ^ (n + 1)) :
    (v ||| 2 ^ n) &&& (2 ^ n - 1) = v ↔ v < 2 ^ n := by
  rw [Nat.and_two_pow_sub_one_eq_mod, ← two_pow_add_mod_eq_lor h, Nat.add_mod_left, Nat.mod_mod]
  exact Nat.mod_eq_iff_lt (Nat.two_pow_pos n).ne'

/-! ## The field -/

/-- An address has no bit beyond those of its field. -/
theorem value_lt_two_pow_fieldBits (address : String) :
    Hex.value address < 2 ^ (fieldBits address + 1) := by
  have hwidth : fieldBits address + 1 = 4 * max fieldDigits address.length := by
    unfold fieldBits fieldDigits
    omega
  calc Hex.value address < 16 ^ address.length := Hex.value_lt_pow address
    _ ≤ 16 ^ max fieldDigits address.length :=
      Nat.pow_le_pow_right (by decide) (Nat.le_max_right _ _)
    _ = 2 ^ (fieldBits address + 1) := by rw [hwidth, pow_mul]; rfl

/-- **The address field is the address with one bit set.** -/
theorem indexedField_eq_lor {address : String} (h : Hex.IsNumeral address)
    (hlen : address.length ≤ 16) :
    indexedField address = .ok (Hex.render (Hex.value address ||| 2 ^ fieldBits address)) := by
  have hvalue := value_lt_two_pow_fieldBits address
  have hbits : fieldBits address + 1 ≤ 64 := by
    unfold fieldBits fieldDigits
    omega
  -- so the word that the bits are read into loses none of them
  have hword : Hex.value address ||| 2 ^ fieldBits address < 2 ^ 64 :=
    Nat.or_lt_two_pow (hvalue.trans_le (Nat.pow_le_pow_right (by decide) hbits))
      (Nat.pow_lt_pow_right (by decide) hbits)
  rw [indexedField_eq_ok h, two_pow_add_mod_eq_lor hvalue, Nat.mod_eq_of_lt hword]

/-- An address that is spelt in at most four digits has a field of sixteen bits. -/
theorem Hex.Spells.fieldBits_eq {address : String} {v : Nat} (h : Spells address v)
    (hv : v ≤ 0xFFFF) : address.length ≤ 4 ∧ TwoPass.fieldBits address = 15 := by
  have hlen : address.length ≤ 4 := by
    rw [h.eq_render, length_render, width_le_iff (by decide)]
    exact Nat.lt_succ_of_le hv
  refine ⟨hlen, ?_⟩
  rw [TwoPass.fieldBits, Nat.max_eq_left (show address.length ≤ fieldDigits from hlen)]
  rfl

/-- **The index flag is the leading bit of the address field, and nothing else changes.** Take
a numeral of at most sixteen digits. Its address field is as wide as the numeral, and at least
four digits wide, all in upper case; the value of the field is that of the numeral with the
leading bit of the field set, so that every other bit is the numeral's.

If the numeral is the spelling of an address up to `0xFFFF`, the field has four digits.
Clearing the leading bit gives the address back exactly if it is at most `0x7FFF`. Another such
address has the same field exactly if the two differ in bit 15 only. -/
theorem index_flag_is_leading_bit {address : String} {v : Nat}
    (hparse : Hex.parse address = .ok v) (hlen : address.length ≤ 16) :
    ∃ field, indexedField address = .ok field
      ∧ Hex.IsField (max 4 address.length) field
      ∧ Hex.value field = v ||| 2 ^ (4 * max 4 address.length - 1)
      ∧ (∀ i, i ≠ 4 * max 4 address.length - 1 → (Hex.value field).testBit i = v.testBit i)
      ∧ (Hex.Spells address v → v ≤ 0xFFFF →
        Hex.IsField 4 field
          ∧ (Hex.value field &&& 0x7FFF = v ↔ v ≤ 0x7FFF)
          ∧ ∀ other u, Hex.Spells other u → u ≤ 0xFFFF → u ≠ v →
            (indexedField other = indexedField address
              ↔ ∀ i, i ≠ 15 → u.testBit i = v.testBit i)) := by
  obtain ⟨hnumeral, rfl⟩ := Hex.parse_eq_ok_iff.mp hparse
  have hfield := indexedField_eq_lor hnumeral hlen
  have hwidth := (length_indexedField hnumeral hlen hfield).1
  have hupper := (Hex.spells_render (Hex.value address ||| 2 ^ fieldBits address)).upper
  refine ⟨_, hfield, ⟨hwidth, hupper⟩, Hex.value_render _, fun i hi => ?_, fun hspells hv => ?_⟩
  · rw [Hex.value_render]
    exact testBit_lor_two_pow_of_ne hi
  · obtain ⟨hshort, hbits⟩ := hspells.fieldBits_eq hv
    rw [Nat.max_eq_left (show address.length ≤ fieldDigits from hshort)] at hwidth
    refine ⟨⟨hwidth, hupper⟩, ?_, fun other u hother hu _ => ?_⟩
    · rw [Hex.value_render, hbits]
      exact (lor_and_eq_self_iff (n := 15) (Nat.lt_succ_of_le hv)).trans Nat.lt_succ_iff
    · have hbound : u < 2 ^ 32 := by omega
      have hotherNumeral : Hex.IsNumeral other := by
        rw [hother.eq_render, Hex.isNumeral_render]
        exact hbound
      obtain ⟨hotherShort, hotherBits⟩ := hother.fieldBits_eq hu
      rw [hfield, indexedField_eq_lor hotherNumeral (hotherShort.trans (by decide)), hotherBits,
        hbits, hother.value_eq, ← lor_two_pow_eq_iff]
      constructor
      · intro hsame
        rw [← Hex.value_render (u ||| 2 ^ 15), Except.ok.inj hsame, Hex.value_render]
      · exact fun hsame => congrArg (fun w => Except.ok (Hex.render w)) hsame

/-- The address `39` is widened before its flag is set, so it shares its field with `8039` and is
read off it. A numeral of five digits has its flag in the fifth. -/
theorem index_flag_is_leading_bit_short :
    indexedField "39" = .ok "8039" ∧ Hex.IsField 4 "8039"
      ∧ Hex.value "8039" &&& 0x7FFF = 0x39
      ∧ indexedField "8039" = indexedField "39"
      ∧ ∃ field, indexedField "00abc" = .ok field ∧ Hex.IsField 5 field
        ∧ Hex.value field = 0xABC ||| 2 ^ 19 := by
  have hspells : Hex.Spells "39" 0x39 := Hex.spells_iff.mpr (by decide)
  have hother : Hex.Spells "8039" 0x8039 := Hex.spells_iff.mpr (by decide)
  have hown : indexedField "39" = .ok "8039" := by decide +kernel
  obtain ⟨field, hfield, -, -, -, hcanonical⟩ :=
    index_flag_is_leading_bit (show Hex.parse "39" = .ok 0x39 by decide +kernel) (by decide)
  obtain rfl : "8039" = field := Except.ok.inj (hown.symm.trans hfield)
  obtain ⟨hdigits, hclear, hcollides⟩ := hcanonical hspells (by decide)
  obtain ⟨wide, hwide, hwideDigits, hwideValue, -, -⟩ :=
    index_flag_is_leading_bit (show Hex.parse "00abc" = .ok 0xABC by decide +kernel) (by decide)
  refine ⟨hown, hdigits, hclear.mpr (by decide), ?_, wide, hwide, hwideDigits, hwideValue⟩
  -- with bit 15 set the two numbers are the same
  have hsame : 0x8039 ||| 2 ^ 15 = 0x39 ||| 2 ^ 15 := by decide
  exact (hcollides "8039" 0x8039 hother (by decide) (by decide)).mpr (lor_two_pow_eq_iff.mp hsame)

end TwoPass
