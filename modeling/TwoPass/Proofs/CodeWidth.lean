import TwoPass.Proofs.FixedWidth
import TwoPass.Proofs.Reports

/-!
# Codes that do not fit a cell

The first pass sets three bytes aside for every operation and every constant, and three
bytes are six digits. The second pass makes the codes by filling up with zeros and never
cuts one down, so it can make codes that are longer than their place. There are two ways
for that to happen. The number of a constant has more than six digits, and then the line
is reported. Or an operation refers to an address that needs more than the four digits that
are left behind its byte, and nothing is said about that. The listing and the object
program then show a code of seven or eight digits.

This module says that there is no third way, and that no code is too short.
-/

namespace TwoPass.SecondPass

variable {lines : List String} {placed : List Statement}

/-- An address of a finished program that is above `0xFFFF` has five or six digits. -/
theorem length_of_referent? (hplaced : (FirstPass.run lines).result = .ok placed)
    (hfault : (run placed).fault = none) {t : Statement} (ht : t ∈ (run placed).statements)
    {code address : String} (hcode : t.code = some code)
    (hfound : t.referent? (run placed).statements = some address)
    (hfar : 0xFFFF < Hex.value address) :
    code.length = 2 + address.length ∧ (address.length = 5 ∨ address.length = 6) := by
  rcases (codedAs hplaced hfault ht hcode).length_eq with ⟨hop, -⟩ | ⟨_, -, hop, -, -⟩
    | ⟨_, v, -, hown, hfits, hlen⟩
  · simp [Statement.referent?, hop] at hfound
  · simp [Statement.referent?, hop] at hfound
  · obtain rfl : Hex.render v = address := Option.some.inj (hown.symm.trans hfound)
    rw [Hex.value_render] at hfar
    have hlong := Hex.lt_length_render_iff.mpr hfar
    have hshort := (Hex.isNumeral_of_address hfits rfl).2
    omega

/-- **Which codes do not fit a cell.** Every code of a finished program consists of at least
six digits. It has more exactly if its statement is a constant that is reported for its
number, or if the label it refers to has an address above `0xFFFF`. A code of the second
kind has the digits of its byte and those of the address, which are seven or eight. -/
theorem code_overflows_iff (hplaced : (FirstPass.run lines).result = .ok placed)
    (hfault : (run placed).fault = none) {t : Statement} (ht : t ∈ (run placed).statements)
    {code : String} (hcode : t.code = some code) :
    Hex.AllDigits code ∧ 6 ≤ code.length
      ∧ (6 < code.length
          ↔ (t.mnemonic = .directive .word
                ∧ ∃ number, ⟨t.line, .operandTooWide number⟩ ∈ (run placed).diagnostics)
            ∨ ∃ address, t.referent? (run placed).statements = some address
                ∧ 0xFFFF < Hex.value address)
      ∧ ∀ address, t.referent? (run placed).statements = some address →
          0xFFFF < Hex.value address →
          code.length = 2 + address.length ∧ (code.length = 7 ∨ code.length = 8) := by
  have hcoded := codedAs hplaced hfault ht hcode
  refine ⟨(isNumeral_code hplaced hfault ht hcode).allDigits, ?_, ?_, ?_⟩
  · rcases hcoded.length_eq with ⟨-, hlen⟩ | ⟨_, -, -, -, hlen⟩ | ⟨_, _, -, -, -, hlen⟩
    · exact hlen.ge
    · exact hlen ▸ Nat.le_max_left 6 _
    · exact hlen ▸ Nat.le_max_left 6 _
  · simp only [hcoded.lt_length_iff, mem_operandTooWide_iff hplaced hfault ht, exists_and_left,
      and_self_left]
  · intro address hfound hfar
    obtain ⟨hlen, hdigits⟩ := length_of_referent? hplaced hfault ht hcode hfound hfar
    omega

/-- A program that refers to the address `0x100000`, where a constant of seven digits is. -/
def farLines : List String :=
  ["P START FFFFA", "LDA FAR", "LDA FAR,X", "FAR WORD 1234567"]

/-- The reference with an index register has eight digits: two for the byte, and six for the
address with its leading bit set. -/
theorem code_overflows_iff_far :
    ∃ placed t, (FirstPass.run farLines).result = .ok placed ∧ (run placed).fault = none
      ∧ t ∈ (run placed).statements ∧ t.code = some "00900000"
      ∧ t.referent? (run placed).statements = some "100000"
      ∧ Hex.AllDigits "00900000" ∧ 6 < "00900000".length
      ∧ "00900000".length = 2 + "100000".length := by
  have hseen : (FirstPass.run farLines).result.toOption.map (fun placed =>
      ((run placed).fault, (run placed).statements[2]?.map fun t =>
        (t.code, t.referent? (run placed).statements)))
      = some (none, some (some "00900000", some "100000")) := by
    decide +kernel
  obtain ⟨placed, hok, hseen⟩ := Option.map_eq_some_iff.mp hseen
  obtain ⟨hfault, hseen⟩ := Prod.mk.inj hseen
  obtain ⟨t, hget, hseen⟩ := Option.map_eq_some_iff.mp hseen
  obtain ⟨hcode, hfound⟩ := Prod.mk.inj hseen
  have hplaced := eq_ok_of_toOption hok
  have ht := List.mem_of_getElem? hget
  have hfar : 0xFFFF < Hex.value "100000" := by decide +kernel
  obtain ⟨hdigits, -, hoverflows, hlength⟩ := code_overflows_iff hplaced hfault ht hcode
  exact ⟨placed, t, hplaced, hfault, ht, hcode, hfound, hdigits,
    hoverflows.mpr (.inr ⟨_, hfound, hfar⟩), (hlength _ hfound hfar).1⟩

end TwoPass.SecondPass
