import Mathlib.Data.Nat.Digits.Lemmas
import TwoPass.Hex.Basic

/-!
# Numerals and their values

Addresses, sizes and codes travel through the assembler as text, so every
statement about where something lies in memory passes through the value of a
text. This module says what that value is, apart from the way `Hex.parse`
computes it: `Hex.value` reads the digits of a text in base sixteen, and
`Hex.IsNumeral` is what a text has to satisfy to be read at all.

The other direction is `Hex.Spells`: a text *spells* a value if it has the
value, is in upper case and has no leading zero. There is exactly one such text
for every number, and `Hex.render` finds it (`Hex.spells_iff`). So two texts
that spell one value are equal, and an equation between addresses can be read
off their values.

The one gap in the round trip is at the top. Every number has a spelling, but
only those below `2 ^ 32` are read back (`Hex.isNumeral_render`): a sum of two
numerals can be a text that is no numeral.
-/

namespace TwoPass

/-! ## Digits in any base -/

/-- Adding up digits from the left is evaluating them from the right. -/
theorem foldl_eq_ofDigits (base : Nat) (digits : List Nat) :
    digits.foldl (fun value digit => base * value + digit) 0
      = Nat.ofDigits base digits.reverse := by
  rw [Nat.ofDigits_eq_foldr, List.foldr_reverse]
  congr 1
  funext total digit
  exact Nat.add_comm _ _

/-- Characters are read as digits together or not at all. -/
theorem mapM_eq_some_iff {digit? : Char → Option Nat} {chars : List Char} {digits : List Nat} :
    chars.mapM digit? = some digits
      ↔ (∀ c ∈ chars, (digit? c).isSome) ∧ digits = chars.map fun c => (digit? c).getD 0 := by
  induction chars generalizing digits with
  | nil =>
    constructor
    · intro h
      cases h
      exact ⟨fun _ hc => absurd hc List.not_mem_nil, rfl⟩
    · rintro ⟨-, rfl⟩
      rfl
  | cons c rest ih =>
    cases hc : digit? c with
    | none => simp [hc]
    | some d =>
      constructor
      · intro h
        simp only [List.mapM_cons, hc, Option.bind_eq_bind, Option.bind_some,
          Option.bind_eq_some_iff, Option.pure_def, Option.some.injEq] at h
        obtain ⟨tail, htail, rfl⟩ := h
        obtain ⟨hall, rfl⟩ := ih.mp htail
        refine ⟨?_, by rw [List.map_cons, hc, Option.getD_some]⟩
        intro x hx
        rcases List.mem_cons.mp hx with rfl | hx
        · rw [hc]; rfl
        · exact hall x hx
      · rintro ⟨hall, rfl⟩
        have htail := ih.mpr ⟨fun x hx => hall x (List.mem_cons_of_mem c hx), rfl⟩
        rw [List.mapM_cons, hc, htail, List.map_cons, hc]
        rfl

namespace Hex

/-- The value of a character as a digit. A character that is no digit counts as
zero, which no numeral has. -/
def digitValue (c : Char) : Nat := (digit? c).getD 0

/-- **The value of a text** in base sixteen, the most significant digit
first. -/
def value (text : String) : Nat :=
  Nat.ofDigits 16 (text.toList.map digitValue).reverse

/-- **A numeral** is a non-empty text of hexadecimal digits whose value fits
32 bits. -/
def IsNumeral (text : String) : Prop :=
  text ≠ "" ∧ (∀ c ∈ text.toList, (digit? c).isSome) ∧ value text < 2 ^ 32

-- only the characters of the text are tried, never all characters there are
instance : DecidablePred IsNumeral := fun text =>
  haveI : Decidable (∀ c ∈ text.toList, (digit? c).isSome) := List.decidableBAll _ _
  inferInstanceAs (Decidable (_ ∧ _ ∧ _))

/-! ## Reading -/

theorem digits?_eq_some_iff {text : String} {digits : List Nat} :
    digits? text = some digits
      ↔ text ≠ "" ∧ (∀ c ∈ text.toList, (digit? c).isSome)
        ∧ digits = text.toList.map digitValue := by
  unfold digits?
  split
  · next hnil =>
    have : text = "" := String.toList_eq_nil_iff.mp hnil
    simp [this]
  · next hne =>
    have : text ≠ "" := fun h => hne (String.toList_eq_nil_iff.mpr h)
    rw [and_iff_right this]
    exact mapM_eq_some_iff

/-- **Exactly the numerals are read**, and they are read as their values. -/
theorem parse_eq_ok_iff {text : String} {v : Nat} :
    parse text = .ok v ↔ IsNumeral text ∧ value text = v := by
  unfold parse IsNumeral
  split
  · next hnone =>
    constructor
    · intro h
      cases h
    · rintro ⟨⟨hne, hall, -⟩, -⟩
      have := digits?_eq_some_iff.mpr ⟨hne, hall, rfl⟩
      rw [hnone] at this
      cases this
  · next digits hsome =>
    obtain ⟨hne, hall, rfl⟩ := digits?_eq_some_iff.mp hsome
    have hv : ofDigits (text.toList.map digitValue) = value text :=
      foldl_eq_ofDigits 16 _
    rw [hv]
    by_cases hlt : value text < bound
    · rw [if_pos hlt]
      exact ⟨fun h => ⟨⟨hne, hall, hlt⟩, Except.ok.inj h⟩, fun h => congrArg Except.ok h.2⟩
    · rw [if_neg hlt]
      constructor
      · intro h
        cases h
      · rintro ⟨⟨-, -, h⟩, -⟩
        exact absurd h hlt

theorem parse_eq_ok {text : String} (h : IsNumeral text) : parse text = .ok (value text) :=
  parse_eq_ok_iff.mpr ⟨h, rfl⟩

/-- Whatever is no numeral is refused with the text as it was given. -/
theorem parse_eq_error {text : String} (h : ¬ IsNumeral text) :
    parse text = .error (.malformed text) := by
  cases hp : parse text with
  | ok v => exact absurd (parse_eq_ok_iff.mp hp).1 h
  | error cause =>
    unfold parse at hp
    split at hp
    · exact hp.symm
    · split at hp
      · cases hp
      · exact hp.symm

/-! ## Writing -/

theorem digit?_digitChar {d : Nat} (h : d < 16) : digit? (digitChar d) = some d := by
  have hall : ∀ d < 16, digit? (digitChar d) = some d := by decide
  exact hall d h

theorem digitValue_digitChar {d : Nat} (h : d < 16) : digitValue (digitChar d) = d := by
  rw [digitValue, digit?_digitChar h]
  rfl

theorem length_fixed (w v : Nat) : (fixed w v).length = w := by
  induction w generalizing v with
  | zero => rfl
  | succ w ih => rw [fixed, List.length_append, ih]; rfl

/-- Every character written is the digit of a value below sixteen. -/
theorem mem_fixed {w v : Nat} {c : Char} (h : c ∈ fixed w v) :
    ∃ d < 16, c = digitChar d := by
  induction w generalizing v with
  | zero => exact absurd h List.not_mem_nil
  | succ w ih =>
    rw [fixed, List.mem_append] at h
    rcases h with h | h
    · exact ih h
    · exact ⟨v % 16, Nat.mod_lt v (by decide), List.mem_singleton.mp h⟩

/-- The last digits of a value have the value of its remainder. -/
theorem ofDigits_fixed (w v : Nat) :
    Nat.ofDigits 16 ((fixed w v).map digitValue).reverse = v % 16 ^ w := by
  induction w generalizing v with
  | zero => rw [pow_zero, Nat.mod_one]; rfl
  | succ w ih =>
    rw [fixed, List.map_append, List.map_singleton, List.reverse_append,
      List.reverse_singleton, List.singleton_append, Nat.ofDigits_cons, ih,
      digitValue_digitChar (Nat.mod_lt v (by decide)), pow_succ', Nat.mod_mul]

/-- Writing one digit more puts it in front. -/
theorem fixed_succ_eq_cons (w v : Nat) :
    fixed (w + 1) v = digitChar (v / 16 ^ w % 16) :: fixed w v := by
  induction w generalizing v with
  | zero => rw [pow_zero, Nat.div_one]; rfl
  | succ w ih =>
    rw [fixed, ih, Nat.div_div_eq_div_mul, ← pow_succ', List.cons_append]
    rfl

/-- The shortest spelling is long enough. -/
theorem lt_pow_width (v : Nat) : v < 16 ^ width v :=
  calc v < 2 ^ (v.log2 + 1) := Nat.lt_log2_self
    _ ≤ 2 ^ (4 * width v) := Nat.pow_le_pow_right (by decide) (by unfold width; omega)
    _ = 16 ^ width v := by rw [pow_mul]; rfl

/-- The shortest spelling is no longer than it has to be: its leading digit
counts. -/
theorem pow_le_of_ne_zero {v : Nat} (h : v ≠ 0) : 16 ^ (v.log2 / 4) ≤ v :=
  calc 16 ^ (v.log2 / 4) = 2 ^ (4 * (v.log2 / 4)) := by rw [pow_mul]; rfl
    _ ≤ 2 ^ v.log2 := Nat.pow_le_pow_right (by decide) (Nat.mul_div_le _ _)
    _ ≤ v := Nat.log2_self_le h

theorem toList_render (v : Nat) : (render v).toList = fixed (width v) v :=
  String.toList_ofList

/-- A spelling has the value it was made from, however large. -/
@[simp] theorem value_render (v : Nat) : value (render v) = v := by
  rw [value, toList_render, ofDigits_fixed, Nat.mod_eq_of_lt (lt_pow_width v)]

theorem render_ne_empty (v : Nat) : render v ≠ "" := by
  intro h
  have hlen := congrArg (fun text : String => text.toList.length) h
  simp only [toList_render, length_fixed, String.toList_empty, List.length_nil] at hlen
  exact absurd hlen (Nat.succ_ne_zero _)

/-- **A spelling is a numeral below the bound and not above it.** -/
@[simp] theorem isNumeral_render (v : Nat) : IsNumeral (render v) ↔ v < 2 ^ 32 := by
  unfold IsNumeral
  rw [value_render]
  refine ⟨fun h => h.2.2, fun h => ⟨render_ne_empty v, fun c hc => ?_, h⟩⟩
  rw [toList_render] at hc
  obtain ⟨d, hd, rfl⟩ := mem_fixed hc
  rw [digit?_digitChar hd]
  rfl

theorem parse_render {v : Nat} (h : v < 2 ^ 32) : parse (render v) = .ok v :=
  parse_eq_ok_iff.mpr ⟨(isNumeral_render v).mpr h, value_render v⟩

/-! ## The spelling of a value -/

/-- The digits in upper case. -/
def upperDigits : List Char := "0123456789ABCDEF".toList

/-- **A text spells a value** if it is made of upper-case digits, has no leading
zero unless it is zero itself, and has the value. -/
structure Spells (text : String) (v : Nat) : Prop where
  /-- There is a digit. -/
  nonempty : text ≠ ""
  /-- Every character is an upper-case digit. -/
  upper : ∀ c ∈ text.toList, c ∈ upperDigits
  /-- Only zero begins with a zero. -/
  leading : text.toList.head? = some '0' → text = "0"
  /-- The text has the value. -/
  value_eq : value text = v

theorem digitChar_digitValue {c : Char} (h : c ∈ upperDigits) :
    digitChar (digitValue c) = c ∧ digitValue c < 16 := by
  have hall : upperDigits.all (fun c => digitChar (digitValue c) = c ∧ digitValue c < 16) = true := by
    decide
  exact of_decide_eq_true (List.all_eq_true.mp hall c h)

/-- `Hex.render` spells its value. -/
theorem spells_render (v : Nat) : Spells (render v) v where
  nonempty := render_ne_empty v
  upper := by
    intro c hc
    rw [toList_render] at hc
    obtain ⟨d, hd, rfl⟩ := mem_fixed hc
    have hall : ∀ d < 16, digitChar d ∈ upperDigits := by decide
    exact hall d hd
  leading := by
    intro hhead
    by_cases hv : v = 0
    · subst hv
      decide
    · -- the leading digit lies strictly between zero and sixteen
      have hlow : 1 ≤ v / 16 ^ (v.log2 / 4) :=
        (Nat.one_le_div_iff (by positivity)).mpr (pow_le_of_ne_zero hv)
      have hhigh : v / 16 ^ (v.log2 / 4) < 16 := by
        rw [Nat.div_lt_iff_lt_mul (by positivity), ← pow_succ']
        exact lt_pow_width v
      rw [toList_render, width, fixed_succ_eq_cons, Nat.mod_eq_of_lt hhigh,
        List.head?_cons, Option.some.injEq] at hhead
      have hall : ∀ d < 16, 1 ≤ d → digitChar d ≠ '0' := by decide
      exact absurd hhead (hall _ hhigh hlow)
  value_eq := value_render v

/-- The digits of a text that spells something other than zero are the digits
of its value. -/
theorem Spells.digits_eq {text : String} {v : Nat} (h : Spells text v)
    (hne : text ≠ "0") : Nat.digits 16 v = (text.toList.map digitValue).reverse := by
  rw [← h.value_eq]
  refine Nat.digits_ofDigits 16 (by decide) _ ?_ ?_
  · intro d hd
    obtain ⟨c, hc, rfl⟩ := List.mem_map.mp (List.mem_reverse.mp hd)
    exact (digitChar_digitValue (h.upper c hc)).2
  · intro hnil hlast
    rw [List.getLast_reverse, List.head_map] at hlast
    -- a leading digit of value zero is the character zero
    have hmem := h.upper _ (List.head_mem (by simpa using hnil))
    have hzero := (digitChar_digitValue hmem).1
    rw [hlast] at hzero
    refine hne (h.leading ?_)
    rw [List.head?_eq_some_head (by simpa using hnil), ← hzero]
    rfl

/-- **A value has one spelling.** -/
theorem Spells.eq_render {text : String} {v : Nat} (h : Spells text v) :
    text = render v := by
  have hchars : ∀ {a : String} {u : Nat}, Spells a u →
      (a.toList.map digitValue).map digitChar = a.toList := by
    intro a u ha
    rw [List.map_map]
    refine (List.map_congr_left fun c hc => ?_).trans (List.map_id _)
    exact (digitChar_digitValue (ha.upper c hc)).1
  by_cases hzero : text = "0"
  · subst hzero
    have hv : v = 0 := h.value_eq.symm.trans (by decide)
    subst hv
    decide
  · have hrender : render v ≠ "0" := by
      intro hr
      have hv : v = 0 := by
        rw [← value_render v, hr]
        decide
      have hdigits := h.digits_eq hzero
      rw [hv, Nat.digits_zero] at hdigits
      have hnil : text.toList = [] := by simpa using hdigits.symm
      exact h.nonempty (String.toList_eq_nil_iff.mp hnil)
    have hdigits := (h.digits_eq hzero).symm.trans ((spells_render v).digits_eq hrender)
    rw [List.reverse_inj] at hdigits
    apply String.toList_inj.mp
    rw [← hchars h, hdigits, hchars (spells_render v)]

theorem spells_iff {text : String} {v : Nat} : Spells text v ↔ text = render v :=
  ⟨Spells.eq_render, fun h => h ▸ spells_render v⟩

/-! ## Sums, differences and padding -/

/-- The sum of two numerals is exact. -/
theorem add_eq_ok {a b : String} (ha : IsNumeral a) (hb : IsNumeral b) :
    add a b = .ok (render (value a + value b)) := by
  unfold add
  rw [parse_eq_ok ha, parse_eq_ok hb]
  rfl

/-- The difference of two numerals is exact where it is not negative. -/
theorem sub_eq {a b : String} (ha : IsNumeral a) (hb : IsNumeral b) :
    sub a b = if value b ≤ value a then .ok (render (value a - value b))
      else .error (.negative a b) := by
  unfold sub
  rw [parse_eq_ok ha, parse_eq_ok hb]
  rfl

/-- Zeros in front of a text keep its value. -/
theorem value_leftpad (text : String) (w : Nat) :
    value (String.ofList (text.toList.leftpad w '0')) = value text := by
  unfold value
  rw [String.toList_ofList, List.leftpad, List.map_append, List.map_replicate,
    List.reverse_append, List.reverse_replicate,
    show digitValue '0' = 0 from by decide, Nat.ofDigits_append_replicate_zero]

/-- **A padded numeral is a numeral of the same value.** -/
theorem padLeft_eq_ok_iff {text padded : String} {w : Nat} :
    padLeft text w = .ok padded
      ↔ IsNumeral text ∧ padded = String.ofList (text.toList.leftpad w '0') := by
  unfold padLeft
  by_cases h : IsNumeral text
  · rw [parse_eq_ok h]
    exact ⟨fun hok => ⟨h, (Except.ok.inj hok).symm⟩, fun hok => congrArg Except.ok hok.2.symm⟩
  · rw [parse_eq_error h]
    exact ⟨fun hok => (nomatch hok), fun hok => absurd hok.1 h⟩

/-- Nothing else is padded. -/
theorem padLeft_eq_error {text : String} (h : ¬ IsNumeral text) (w : Nat) :
    padLeft text w = .error (.malformed text) := by
  unfold padLeft
  rw [parse_eq_error h]
  rfl

end Hex

end TwoPass
