import Mathlib.Data.List.Induction
import TwoPass.Proofs.Bits

/-!
# Arithmetic on texts is exact

An address is a text, and so are the size that is added to it and the sum. Whether the sum
is right is therefore a question about what texts mean. `Hex.Denotes` answers it without
any reader, digit by digit, and `Hex.denotes_iff` ties it to the value that the rest of the
theory computes with.

Every outcome of the four operations can then be said in terms of numbers. Reading accepts
what denotes a number below `2 ^ 32` (`Hex.parse_eq_ok_iff_denotes`), a sum is never cut
short (`Hex.add_eq_ok_iff`), and a difference is either exact or negative
(`Hex.sub_eq_ok_iff`, `Hex.sub_eq_negative_iff`).

The one place where two operations do not fit together is the bound. A sum of two numerals
may reach `2 ^ 32`; its text is right, but no operation takes it any more
(`Hex.sub_render_add`).
-/

namespace TwoPass

namespace Hex

/-! ## What a text denotes -/

/-- **A digit of value `d`**: its upper case stands at place `d` among the sixteen digits,
counted from zero. -/
def IsDigit (c : Char) (d : Nat) : Prop := upperDigits.idxOf? c.toUpper = some d

/-- **A text denotes a number** in base sixteen. A digit denotes its value, and one more
digit behind a text counts sixteen times what the text denotes, and its own value. -/
inductive Denotes : String → Nat → Prop
  /-- A single digit. -/
  | digit {c : Char} {d : Nat} : IsDigit c d → Denotes (String.singleton c) d
  /-- A digit behind others. -/
  | push {text : String} {v : Nat} {c : Char} {d : Nat} :
    Denotes text v → IsDigit c d → Denotes (text.push c) (16 * v + d)

/-- A character is read as the digit that it is. -/
theorem digit?_eq_idxOf? (c : Char) : digit? c = upperDigits.idxOf? c.toUpper := by
  by_cases hc : c.toNat ≤ 127
  · have hall : ∀ n < 128, digit? (Char.ofNat n) = upperDigits.idxOf? (Char.ofNat n).toUpper := by
      decide +kernel
    have hascii := hall c.toNat (Nat.lt_succ_of_le hc)
    rwa [Char.ofNat_toNat] at hascii
  · -- beyond ASCII there is neither a digit nor a letter that changes in upper case
    have hnone : digit? c = none :=
      Option.not_isSome_iff_eq_none.mp fun hsome => hc (toNat_le_of_digit hsome)
    have hupper : c.toUpper = c :=
      dif_neg fun hletter => hc (Nat.le_trans (UInt32.le_iff_toNat_le.mp hletter.2) (by decide))
    have hother : c ∉ upperDigits := by
      intro hmem
      have hall : upperDigits.all (·.toNat ≤ 127) = true := by decide
      exact hc (of_decide_eq_true (List.all_eq_true.mp hall c hmem))
    rw [hnone, hupper, List.idxOf?_eq_none_iff.mpr hother]

theorem isDigit_iff {c : Char} {d : Nat} : IsDigit c d ↔ digit? c = some d := by
  rw [IsDigit, digit?_eq_idxOf?]

theorem isSome_digit?_iff {c : Char} : (digit? c).isSome ↔ c.toUpper ∈ upperDigits := by
  rw [digit?_eq_idxOf?, List.isSome_idxOf?]

theorem IsDigit.digitValue_eq {c : Char} {d : Nat} (h : IsDigit c d) : digitValue c = d := by
  rw [digitValue, isDigit_iff.mp h, Option.getD_some]

theorem IsDigit.isSome_digit? {c : Char} {d : Nat} (h : IsDigit c d) : (digit? c).isSome :=
  Option.isSome_iff_exists.mpr ⟨d, isDigit_iff.mp h⟩

@[simp] theorem value_empty : value "" = 0 := by
  rw [value, String.toList_empty]
  rfl

theorem allDigits_empty : AllDigits "" := by
  intro c hc
  rw [String.toList_empty] at hc
  exact absurd hc List.not_mem_nil

/-- One digit more makes a text count sixteen times. -/
theorem value_push (text : String) (c : Char) :
    value (text.push c) = 16 * value text + digitValue c := by
  rw [value, String.toList_push, List.map_append, List.reverse_append, List.map_singleton,
    List.reverse_singleton, List.singleton_append, Nat.ofDigits_cons, Nat.add_comm]
  rfl

theorem allDigits_push {text : String} {c : Char} :
    AllDigits (text.push c) ↔ AllDigits text ∧ (digit? c).isSome := by
  simp [AllDigits, String.toList_push, or_imp, forall_and]

theorem singleton_eq_push (c : Char) : String.singleton c = "".push c := by
  rw [← String.toList_inj, String.toList_singleton, String.toList_push]
  rfl

/-- A text of digits denotes its value. The induction takes digits off the end, the way the
value is made up. -/
theorem denotes_value {text : String} (hne : text ≠ "") (hall : AllDigits text) :
    Denotes text (value text) := by
  obtain ⟨chars, rfl⟩ : ∃ chars, text = String.ofList chars := ⟨_, String.ofList_toList.symm⟩
  induction chars using List.reverseRecOn with
  | nil => exact absurd rfl hne
  | append_singleton before c ih =>
    have hpush : String.ofList (before ++ [c]) = (String.ofList before).push c := by
      rw [← String.toList_inj, String.toList_push, String.toList_ofList, String.toList_ofList]
    rw [hpush] at hall ⊢
    obtain ⟨hbefore, hdigit⟩ := allDigits_push.mp hall
    obtain ⟨d, hd⟩ := Option.isSome_iff_exists.mp hdigit
    have hc : IsDigit c d := isDigit_iff.mpr hd
    rw [value_push, hc.digitValue_eq]
    by_cases hempty : String.ofList before = ""
    · rw [hempty, ← singleton_eq_push, value_empty, Nat.mul_zero, Nat.zero_add]
      exact .digit hc
    · exact .push (ih hempty hbefore) hc

/-- **What a text denotes is its value**, and every non-empty text of digits denotes
something. -/
theorem denotes_iff {text : String} {v : Nat} :
    Denotes text v ↔ text ≠ "" ∧ AllDigits text ∧ value text = v := by
  constructor
  · intro h
    induction h with
    | digit hc =>
      rw [singleton_eq_push, value_push, hc.digitValue_eq, value_empty, Nat.mul_zero,
        Nat.zero_add, allDigits_push]
      exact ⟨String.push_ne_empty, ⟨allDigits_empty, hc.isSome_digit?⟩, rfl⟩
    | push _ hc ih =>
      obtain ⟨-, hall, rfl⟩ := ih
      rw [value_push, hc.digitValue_eq, allDigits_push]
      exact ⟨String.push_ne_empty, ⟨hall, hc.isSome_digit?⟩, rfl⟩
  · rintro ⟨hne, hall, rfl⟩
    exact denotes_value hne hall

/-- The texts that denote something are the non-empty texts of digits in either case. -/
theorem exists_denotes_iff {text : String} :
    (∃ v, Denotes text v) ↔ text ≠ "" ∧ ∀ c ∈ text.toList, c.toUpper ∈ upperDigits := by
  simp only [denotes_iff, AllDigits, isSome_digit?_iff, ← and_assoc, exists_and_left,
    exists_eq', and_true]

/-! ## Outcomes -/

variable {a b text : String}

/-- **A text is read exactly if it denotes a number below `2 ^ 32`**, as that number. -/
theorem parse_eq_ok_iff_denotes {v : Nat} : parse text = .ok v ↔ Denotes text v ∧ v < 2 ^ 32 := by
  rw [parse_eq_ok_iff, IsNumeral, denotes_iff, AllDigits]
  constructor
  · rintro ⟨⟨hne, hall, hlt⟩, rfl⟩
    exact ⟨⟨hne, hall, rfl⟩, hlt⟩
  · rintro ⟨⟨hne, hall, rfl⟩, hlt⟩
    exact ⟨⟨hne, hall, hlt⟩, rfl⟩

/-- Whatever fails to be read is malformed. -/
theorem parse_cases (text : String) :
    (∃ v, parse text = .ok v) ∨ parse text = .error (.malformed text) := by
  by_cases h : IsNumeral text
  · exact .inl ⟨_, parse_eq_ok h⟩
  · exact .inr (parse_eq_error h)

/-- **An outcome other than a malformed text comes from two numbers.** Sums and differences
are taken of two texts that are read first. -/
theorem bind_parse_eq_iff {α : Type} {take : Nat → Nat → Except HexFault α}
    {outcome : Except HexFault α} (houtcome : ∀ text, outcome ≠ .error (.malformed text)) :
    (do let x ← parse a; let y ← parse b; take x y) = outcome
      ↔ ∃ x y, parse a = .ok x ∧ parse b = .ok y ∧ take x y = outcome := by
  rcases parse_cases a with ⟨x, hx⟩ | hx
  · rcases parse_cases b with ⟨y, hy⟩ | hy
    · simp only [hx, hy, Except.ok.injEq, exists_and_left, exists_eq_left']
      rfl
    · simp only [hx, hy, reduceCtorEq, false_and, and_false, exists_false, iff_false]
      exact (houtcome b).symm
  · simp only [hx, reduceCtorEq, false_and, exists_false, iff_false]
    exact (houtcome a).symm

/-- **A sum is spelt exactly**, however large. -/
theorem add_eq_ok_iff {sum : String} :
    add a b = .ok sum
      ↔ ∃ x y, parse a = .ok x ∧ parse b = .ok y ∧ Spells sum (x + y) := by
  refine (bind_parse_eq_iff (by simp)).trans ?_
  refine exists_congr fun x => exists_congr fun y => and_congr_right' (and_congr_right' ?_)
  show Except.ok (render (x + y)) = Except.ok sum ↔ _
  rw [Except.ok.injEq, spells_iff, eq_comm]

/-- **A difference is spelt exactly** where there is one. -/
theorem sub_eq_ok_iff {rest : String} :
    sub a b = .ok rest
      ↔ ∃ x y, parse a = .ok x ∧ parse b = .ok y ∧ y ≤ x ∧ Spells rest (x - y) := by
  refine (bind_parse_eq_iff (by simp)).trans ?_
  refine exists_congr fun x => exists_congr fun y => and_congr_right' (and_congr_right' ?_)
  by_cases hle : y ≤ x
  · rw [if_pos hle, and_iff_right hle]
    show Except.ok (render (x - y)) = Except.ok rest ↔ _
    rw [Except.ok.injEq, spells_iff, eq_comm]
  · rw [if_neg hle]
    exact iff_of_false nofun fun h => hle h.1

/-- **A difference that lies below zero is refused** with the two texts as they were
given. -/
theorem sub_eq_negative_iff {minuend subtrahend : String} :
    sub a b = .error (.negative minuend subtrahend)
      ↔ ∃ x y, parse a = .ok x ∧ parse b = .ok y ∧ x < y ∧ minuend = a ∧ subtrahend = b := by
  refine (bind_parse_eq_iff (by simp)).trans ?_
  refine exists_congr fun x => exists_congr fun y => and_congr_right' (and_congr_right' ?_)
  by_cases hle : y ≤ x
  · rw [if_pos hle]
    exact iff_of_false nofun fun h => Nat.not_lt_of_le hle h.1
  · rw [if_neg hle, and_iff_right (Nat.lt_of_not_le hle)]
    show Except.error (HexFault.negative a b) = Except.error (.negative minuend subtrahend) ↔ _
    rw [Except.error.injEq, HexFault.negative.injEq, eq_comm, eq_comm (a := b)]

/-- **A sum less its second part is the first part in its shortest spelling**, unless it
has grown beyond what is read. -/
theorem sub_render_add {y : Nat} (hb : parse b = .ok y) (x : Nat) :
    sub (render (x + y)) b
      = if x + y < 2 ^ 32 then .ok (render x) else .error (.malformed (render (x + y))) := by
  split
  · next hlt =>
    refine sub_eq_ok_iff.mpr ⟨x + y, y, parse_render hlt, hb, Nat.le_add_left y x, ?_⟩
    rw [Nat.add_sub_cancel]
    exact spells_render x
  · next hge =>
    rw [sub, parse_eq_error (mt (isNumeral_render _).mp hge)]
    rfl

theorem exists_padLeft_eq_ok_iff {n : Nat} :
    (∃ padded, padLeft text n = .ok padded) ↔ ∃ v, parse text = .ok v := by
  simp only [padLeft_eq_ok_iff, parse_eq_ok_iff, exists_and_left, exists_eq, exists_eq', and_true]

/-- **Zeros before a text change nothing but its length.** -/
theorem parse_of_padLeft {n : Nat} {padded : String} (h : padLeft text n = .ok padded) :
    padded.length = max text.length n ∧ parse padded = parse text := by
  obtain ⟨hnumeral, rfl⟩ := padLeft_eq_ok_iff.mp h
  refine ⟨by rw [length_leftpad, Nat.max_comm], ?_⟩
  rw [parse_eq_ok hnumeral, parse_eq_ok (hnumeral.leftpad n), value_leftpad]

/-- **Every number has one spelling.** -/
theorem existsUnique_spells (v : Nat) : ∃! text, Spells text v :=
  ⟨render v, spells_render v, fun _ h => h.eq_render⟩

/-- **Arithmetic on hexadecimal texts is exact.** Take any two texts `a` and `b`.

A text denotes a number if it has at least one character and all of them are hexadecimal
digits in either case. It is read exactly if that number is below `2 ^ 32`, and as that
number; there may be any number of zeros in front.

A number has one spelling, in upper case and without leading zeros. The sum of `a` and `b`
exists exactly if both are read, and it is the spelling of the sum of their numbers, also
above the bound. The difference exists exactly if both are read and the second is not the
greater one, and it is the spelling of the difference; it is negative exactly if both are
read and the second is the greater one. Taking `b` from the sum gives the spelling of the
number of `a` if the sum is below `2 ^ 32`, and otherwise the sum is refused as malformed.

A text can be filled up with zeros to any length exactly if it is read. The result is as
long as asked for, or as the text if that is longer, and is read as the same number. -/
theorem arithmetic_is_exact (a b : String) :
    ((∃ v, Denotes a v) ↔ a ≠ "" ∧ ∀ c ∈ a.toList, c.toUpper ∈ upperDigits)
      ∧ (∀ v, parse a = .ok v ↔ Denotes a v ∧ v < 2 ^ 32)
      ∧ (∀ v, ∃! text, Spells text v)
      ∧ (∀ sum, add a b = .ok sum
        ↔ ∃ x y, parse a = .ok x ∧ parse b = .ok y ∧ Spells sum (x + y))
      ∧ (∀ rest, sub a b = .ok rest
        ↔ ∃ x y, parse a = .ok x ∧ parse b = .ok y ∧ y ≤ x ∧ Spells rest (x - y))
      ∧ (∀ minuend subtrahend, sub a b = .error (.negative minuend subtrahend)
        ↔ ∃ x y, parse a = .ok x ∧ parse b = .ok y ∧ x < y ∧ minuend = a ∧ subtrahend = b)
      ∧ (∀ x y, parse a = .ok x → parse b = .ok y →
        ∃ sum back, add a b = .ok sum ∧ Spells back x
          ∧ sub sum b = if x + y < 2 ^ 32 then .ok back else .error (.malformed sum))
      ∧ ∀ n, ((∃ padded, padLeft a n = .ok padded) ↔ ∃ v, parse a = .ok v)
        ∧ ∀ padded, padLeft a n = .ok padded →
          padded.length = max a.length n ∧ parse padded = parse a := by
  refine ⟨exists_denotes_iff, fun v => parse_eq_ok_iff_denotes, existsUnique_spells,
    fun sum => add_eq_ok_iff, fun rest => sub_eq_ok_iff,
    fun minuend subtrahend => sub_eq_negative_iff, ?_,
    fun n => ⟨exists_padLeft_eq_ok_iff, fun padded => parse_of_padLeft⟩⟩
  intro x y ha hb
  have hsum : add a b = .ok (render (x + y)) :=
    add_eq_ok_iff.mpr ⟨x, y, ha, hb, spells_render _⟩
  exact ⟨_, _, hsum, spells_render x, sub_render_add hb x⟩

/-- At the bound a sum is still right, and can no longer be taken apart. -/
example : add "0fffffffF" "1" = .ok "100000000"
    ∧ sub "100000000" "1" = .error (.malformed "100000000") := by
  decide

end Hex

end TwoPass
