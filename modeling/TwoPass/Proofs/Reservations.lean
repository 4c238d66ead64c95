import TwoPass.Proofs.Layout

/-!
# How much a reservation takes

The count of a reservation is a text, and on the way from the text to a size it meets three
bounds. A count is read only if it is below `2 ^ 64`, it is multiplied by the bytes of a
piece, and what comes out is cut down to `maxReserve`. The last bound does no harm, because
a statement that takes so much puts the next one beyond the highest address. The first one
does: a decimal number from `2 ^ 64` on is treated like a word that is no number at all, and
the reservation takes three bytes. So more can be less, and `Statement.bytes_le_bytes_iff`
says exactly when.

On the other side more is read than decimal digits. A plus sign in front of them makes no
difference, as `Decimal.Denotes` has it.
-/

namespace TwoPass

namespace Decimal

/-- The value of a character as a digit. One that is no digit counts as zero; it does not
occur in a decimal number. -/
def digitValue (c : Char) : Nat := (digit? c).getD 0

/-- **The value of a text** in base ten, the most significant digit first. -/
def value (text : String) : Nat := Nat.ofDigits 10 (text.toList.map digitValue).reverse

/-- **A decimal number** is a non-empty text of decimal digits, of any length. -/
def IsDecimal (text : String) : Prop := text ≠ "" ∧ ∀ c ∈ text.toList, c.isDigit = true

-- only the characters of the text are tried, never all characters there are
instance : DecidablePred IsDecimal := fun text =>
  haveI : Decidable (∀ c ∈ text.toList, c.isDigit = true) := List.decidableBAll _ _
  inferInstanceAs (Decidable (_ ∧ _))

/-- **A text denotes a number**: it is a decimal number of that value, or one behind a plus
sign. -/
def Denotes (text : String) (n : Nat) : Prop :=
  ∃ digits, (text = digits ∨ text = "+" ++ digits) ∧ IsDecimal digits ∧ value digits = n

theorem IsDecimal.denotes {text : String} (h : IsDecimal text) : Denotes text (value text) :=
  ⟨text, .inl rfl, h, rfl⟩

/-- A decimal number does not begin with a plus sign. -/
theorem IsDecimal.unsigned {digits : String} (h : IsDecimal digits) (chars : List Char) :
    digits.toList ≠ '+' :: chars := by
  intro hplus
  have hdigit := h.2 '+' (hplus ▸ List.mem_cons_self)
  exact absurd hdigit (by decide)

theorem toList_plus (digits : String) : ("+" ++ digits).toList = '+' :: digits.toList := by
  rw [String.toList_append]
  rfl

theorem isSome_digit? (c : Char) : (digit? c).isSome = c.isDigit := by
  have hsame : ('0' ≤ c ∧ c ≤ '9') ↔ c.isDigit = true := by
    simp [Char.isDigit, Char.le_def]
  unfold digit?
  by_cases hc : c.isDigit = true
  · rw [if_pos (hsame.mpr hc), hc]
    rfl
  · rw [if_neg fun h => hc (hsame.mp h)]
    simpa using hc

/-- Digits are read as far as 64 bits go. -/
theorem ofChars?_eq_some_iff {digits : String} {n : Nat} :
    ofChars? digits.toList = some n ↔ (IsDecimal digits ∧ value digits = n) ∧ n < 2 ^ 64 := by
  have hempty : digits = "" ↔ digits.toList = [] := String.toList_eq_nil_iff.symm
  unfold ofChars? IsDecimal
  split
  · next hnil => simp [hempty.mpr hnil]
  · next hne =>
    have hne : digits ≠ "" := fun h => hne (hempty.mp h)
    have hread : ∀ read, digits.toList.mapM digit? = some read
        ↔ (∀ c ∈ digits.toList, c.isDigit = true) ∧ read = digits.toList.map digitValue := by
      intro read
      simp only [← isSome_digit?]
      exact mapM_eq_some_iff
    have hvalue : ofDigits (digits.toList.map digitValue) = value digits := foldl_eq_ofDigits 10 _
    simp only [Option.bind_eq_bind, Option.bind_eq_some_iff, hread, Option.ite_none_right_eq_some,
      Option.some.injEq]
    constructor
    · rintro ⟨read, ⟨hall, rfl⟩, hlt, rfl⟩
      rw [hvalue] at hlt ⊢
      exact ⟨⟨⟨hne, hall⟩, rfl⟩, hlt⟩
    · rintro ⟨⟨⟨-, hall⟩, rfl⟩, hlt⟩
      exact ⟨_, ⟨hall, rfl⟩, hvalue ▸ hlt, hvalue⟩

/-- **A count is what the text denotes, below `2 ^ 64`.** -/
theorem count?_eq_some_iff {text : String} {n : Nat} :
    count? text = some n ↔ Denotes text n ∧ n < 2 ^ 64 := by
  constructor
  · intro h
    unfold count? at h
    split at h
    · next chars hplus =>
      rw [← String.toList_ofList (l := chars)] at h
      obtain ⟨hdigits, hlt⟩ := ofChars?_eq_some_iff.mp h
      refine ⟨⟨String.ofList chars, .inr ?_, hdigits⟩, hlt⟩
      rw [← String.toList_inj, hplus, toList_plus, String.toList_ofList]
    · obtain ⟨hdigits, hlt⟩ := ofChars?_eq_some_iff.mp h
      exact ⟨⟨text, .inl rfl, hdigits⟩, hlt⟩
  · rintro ⟨⟨digits, hspelt, hdigits⟩, hlt⟩
    have hread := ofChars?_eq_some_iff.mpr ⟨hdigits, hlt⟩
    rcases hspelt with rfl | rfl
    · unfold count?
      split
      · next chars hplus => exact absurd hplus (hdigits.1.unsigned chars)
      · exact hread
    · rw [count?, toList_plus]
      exact hread

/-- A text denotes one number at most. -/
theorem Denotes.unique {text : String} {m n : Nat} (hm : Denotes text m) (hn : Denotes text n) :
    m = n := by
  obtain ⟨a, ha, hadigits, rfl⟩ := hm
  obtain ⟨b, hb, hbdigits, rfl⟩ := hn
  rcases ha with rfl | rfl
  · rcases hb with rfl | rfl
    · rfl
    · exact absurd (toList_plus b) (hadigits.unsigned _)
  · rcases hb with rfl | hb
    · exact absurd (toList_plus a) (hbdigits.unsigned _)
    · have hchars := congrArg String.toList hb
      rw [toList_plus, toList_plus] at hchars
      rw [String.toList_inj.mp (List.cons.inj hchars).2]

end Decimal

/-- How many bytes a piece of a reservation has. -/
def Mnemonic.unit? : Mnemonic → Option Nat
  | .directive .reserveWords => some 3
  | .directive .reserveBytes => some 1
  | _ => none

namespace Statement

variable {s t : Statement} {unit : Nat} {text other : String}

theorem size_of_unit? (h : s.mnemonic.unit? = some unit) : s.size = s.reserve unit := by
  unfold Mnemonic.unit? at h
  unfold size
  split at h
  · next hwords =>
    cases h
    rw [hwords]
  · next hbytes =>
    cases h
    rw [hbytes]
  · cases h

/-- **A count that is read is taken**, and cut down if it is too much. -/
theorem size_of_denotes (hunit : s.mnemonic.unit? = some unit)
    (hop : s.operand = some (.literal text)) {n : Nat} (hn : Decimal.Denotes text n)
    (hlt : n < 2 ^ 64) : s.size = (Hex.render (min (unit * n) (2 ^ 32 - 1)), []) := by
  have hcount : s.count? = some n := by
    rw [count?, hop]
    exact Decimal.count?_eq_some_iff.mpr ⟨hn, hlt⟩
  rw [size_of_unit? hunit, reserve, hcount, Nat.mul_comm unit n]
  rfl

/-- **A count that is not read is reported**, and three bytes are taken. -/
theorem size_of_uncounted (hunit : s.mnemonic.unit? = some unit)
    (hop : s.operand = some (.literal text)) (hnone : ¬∃ n < 2 ^ 64, Decimal.Denotes text n) :
    s.size = ("3", [⟨s.line, .badReserveCount s.mnemonic.name text⟩]) := by
  have hcount : s.count? = none := by
    rw [count?, hop]
    refine Option.eq_none_iff_forall_not_mem.mpr fun n hn => hnone ?_
    obtain ⟨hdenotes, hlt⟩ := Decimal.count?_eq_some_iff.mp hn
    exact ⟨n, hlt, hdenotes⟩
  rw [size_of_unit? hunit, reserve, hcount, operandText, hop]
  rfl

/-- The bytes a decimal count takes. -/
theorem bytes_of_isDecimal (hunit : s.mnemonic.unit? = some unit)
    (hop : s.operand = some (.literal text)) (h : Decimal.IsDecimal text) :
    s.bytes = if Decimal.value text < 2 ^ 64 then min (unit * Decimal.value text) (2 ^ 32 - 1)
      else 3 := by
  unfold bytes
  split
  · next hlt => rw [size_of_denotes hunit hop h.denotes hlt, Hex.value_render]
  · next hge =>
    have hnone : ¬∃ n < 2 ^ 64, Decimal.Denotes text n := by
      rintro ⟨n, hlt, hn⟩
      exact hge (hn.unique h.denotes ▸ hlt)
    rw [size_of_uncounted hunit hop hnone]
    show Hex.value "3" = 3
    decide

/-- **When a larger count takes at least as much**: if it can be read, if the smaller one
cannot be read either, or if that asks for no more than three bytes. -/
theorem bytes_le_bytes_iff (hunit : s.mnemonic.unit? = some unit)
    (hop : s.operand = some (.literal text)) (hsame : t.mnemonic = s.mnemonic)
    (hother : t.operand = some (.literal other)) (htext : Decimal.IsDecimal text)
    (hdecimal : Decimal.IsDecimal other) (hle : Decimal.value text ≤ Decimal.value other) :
    s.bytes ≤ t.bytes
      ↔ Decimal.value other < 2 ^ 64 ∨ 2 ^ 64 ≤ Decimal.value text
        ∨ unit * Decimal.value text ≤ 3 := by
  have hmul : unit * Decimal.value text ≤ unit * Decimal.value other := Nat.mul_le_mul_left _ hle
  rw [bytes_of_isDecimal hunit hop htext, bytes_of_isDecimal (hsame ▸ hunit) hother hdecimal]
  generalize unit * Decimal.value text = asked, unit * Decimal.value other = askedOther at hmul ⊢
  split
  · split
    · omega
    · omega
  · split
    · omega
    · omega

/-- **What a reservation takes, and when it is reported.** A text that denotes a number below
`2 ^ 64` gives that many pieces, cut down to `2 ^ 32 - 1` bytes, without a word. Every other
text is reported and takes three bytes, a decimal number from `2 ^ 64` on included. Hence the
decimal counts are not in step with what they take: a larger one takes less as soon as it
cannot be read while the smaller one is read and asks for more than three bytes. -/
theorem reservation_takes (hunit : s.mnemonic.unit? = some unit)
    (hop : s.operand = some (.literal text)) :
    (∀ n < 2 ^ 64, Decimal.Denotes text n →
        s.size = (Hex.render (min (unit * n) (2 ^ 32 - 1)), []))
      ∧ (s.size = ("3", [⟨s.line, .badReserveCount s.mnemonic.name text⟩])
          ↔ ¬∃ n < 2 ^ 64, Decimal.Denotes text n)
      ∧ (s.size.2 = [] ↔ ∃ n < 2 ^ 64, Decimal.Denotes text n)
      ∧ ∀ (t : Statement) (other : String), t.mnemonic = s.mnemonic →
          t.operand = some (.literal other) → Decimal.IsDecimal text → Decimal.IsDecimal other →
          Decimal.value text ≤ Decimal.value other →
          (s.bytes ≤ t.bytes
            ↔ Decimal.value other < 2 ^ 64 ∨ 2 ^ 64 ≤ Decimal.value text
              ∨ unit * Decimal.value text ≤ 3) := by
  have hread : ∀ n < 2 ^ 64, Decimal.Denotes text n →
      s.size = (Hex.render (min (unit * n) (2 ^ 32 - 1)), []) := fun n hlt hn =>
    size_of_denotes hunit hop hn hlt
  refine ⟨hread, ⟨?_, size_of_uncounted hunit hop⟩, ⟨?_, ?_⟩, ?_⟩
  · rintro hsize ⟨n, hlt, hn⟩
    rw [hread n hlt hn] at hsize
    cases (Prod.mk.inj hsize).2
  · intro hsilent
    by_contra hnone
    rw [size_of_uncounted hunit hop hnone] at hsilent
    cases hsilent
  · rintro ⟨n, hlt, hn⟩
    rw [hread n hlt hn]
  · intro t other hsame hother htext hdecimal hle
    exact bytes_le_bytes_iff hunit hop hsame hother htext hdecimal hle

/-- A reservation of that many bytes, on line 1. -/
def reserving (count : String) : Statement where
  line := 1
  label := none
  mnemonic := .directive .reserveBytes
  operand := some (.literal count)

/-- Four bytes are read and taken, and they are more than `2 ^ 64` bytes get. -/
theorem reservation_takes_four :
    (reserving "4").mnemonic.unit? = some 1 ∧ (reserving "4").operand = some (.literal "4")
      ∧ (reserving "4").size = ("4", [])
      ∧ ¬(reserving "4").bytes ≤ (reserving "18446744073709551616").bytes := by
  have htext : Decimal.IsDecimal "4" := by decide
  have hfour : Decimal.value "4" = 4 := by decide +kernel
  have hhuge : Decimal.value "18446744073709551616" = 2 ^ 64 := by decide +kernel
  obtain ⟨hread, -, -, horder⟩ := reservation_takes (s := reserving "4") rfl rfl
  refine ⟨rfl, rfl, ?_, ?_⟩
  · rw [hread 4 (by decide) (hfour ▸ htext.denotes)]
    decide
  · have hiff := horder (reserving "18446744073709551616") _ rfl rfl htext (by decide)
      (by rw [hfour, hhuge]; decide)
    rw [hiff, hfour, hhuge]
    decide

/-- **A decimal number is reported as none, and a text that is none is taken.** The number is
`2 ^ 64`, the first that 64 bits do not hold, and it takes three bytes. The text is a four
behind a plus sign. -/
theorem misjudged_counts :
    Decimal.IsDecimal "18446744073709551616"
      ∧ (reserving "18446744073709551616").size
        = ("3", [⟨1, .badReserveCount "RESB" "18446744073709551616"⟩])
      ∧ ¬Decimal.IsDecimal "+4" ∧ (reserving "+4").size = ("4", [])
      ∧ (reserving "4").bytes = 4 ∧ (reserving "18446744073709551616").bytes = 3 := by
  decide +kernel

end Statement

end TwoPass
