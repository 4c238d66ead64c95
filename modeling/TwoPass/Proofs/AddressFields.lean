import TwoPass.Proofs.FixedWidth
import TwoPass.Proofs.Relocation

/-!
# What stands in an address field

The code of an operation that refers to a label is the byte of the operation, the address
in its shortest spelling, and zeros until there are six digits. The zeros come last. An
address of four digits fills its field and is read back from it. A shorter one stands at
the left end, where it counts for more than it is (`Hex.filled`), unless it is zero.

The code therefore gives the address up to a power of sixteen. Two references of one
operation have the same code exactly if one of the addresses is the other with zeros
behind it (`Hex.filled_eq_filled_iff`), and addresses of four digits are told apart. The
field of an index register differs: there the address is widened first.
-/

namespace TwoPass

namespace Hex

/-! ## Texts by their values -/

/-- Zeros behind a text count as much as any digits there. -/
theorem value_padRight (text : String) (w : Nat) :
    value (padRight text w) = value text * 16 ^ (w - text.length) := by
  have hsplit : padRight text w
      = text ++ String.ofList (List.replicate (w - text.length) '0') := by
    apply String.toList_inj.mp
    rw [padRight, String.toList_append, String.toList_ofList, String.toList_ofList,
      List.rightpad, String.length_toList]
  have hzeros : ∀ n, value (String.ofList (List.replicate n '0')) = 0 := by
    intro n
    simpa [List.leftpad, show value "" = 0 from rfl] using value_leftpad "" n
  rw [hsplit, value_append, hzeros, String.length_ofList, List.length_replicate, Nat.add_zero]

/-- **A field is given by its value.** -/
theorem IsField.eq_of_value_eq {w : Nat} {a b : String} (ha : IsField w a) (hb : IsField w b)
    (h : value a = value b) : a = b := by
  have hlength : (a.toList.map digitValue).reverse.length
      = (b.toList.map digitValue).reverse.length := by
    simp only [List.length_reverse, List.length_map, String.length_toList, ha.1, hb.1]
  have hsmall : ∀ text : String, ∀ d ∈ (text.toList.map digitValue).reverse, d < 16 := by
    intro text d hd
    obtain ⟨c, -, rfl⟩ := List.mem_map.mp (List.mem_reverse.mp hd)
    exact digitValue_lt c
  have hdigits := List.reverse_injective
    (Nat.ofDigits_inj_of_len_eq (by decide) hlength (hsmall a) (hsmall b) h)
  -- the upper-case digits of a text are those of their values
  have hchars : ∀ {text : String}, IsField w text →
      (text.toList.map digitValue).map digitChar = text.toList := by
    intro text htext
    rw [List.map_map]
    refine (List.map_congr_left fun c hc => ?_).trans (List.map_id _)
    exact (digitChar_digitValue (htext.2 c hc)).1
  apply String.toList_inj.mp
  rw [← hchars ha, ← hchars hb, hdigits]

/-! ## Addresses at the left end of their field -/

/-- **What an address counts for at the left end of its field**: its value with zeros
behind it until there are four digits. -/
def filled (v : Nat) : Nat := v * 16 ^ (fieldDigits - width v)

/-- Zeros behind a number make it as much longer. -/
theorem width_mul_pow {v : Nat} (hv : v ≠ 0) (k : Nat) : width (v * 16 ^ k) = width v + k := by
  have hlow : 16 ^ (v.log2 / 4 + k) ≤ v * 16 ^ k := by
    rw [pow_add]
    exact Nat.mul_le_mul_right _ (pow_le_of_ne_zero hv)
  have hhigh : v * 16 ^ k < 16 ^ (v.log2 / 4 + k + 1) := by
    rw [Nat.add_right_comm, pow_add]
    exact Nat.mul_lt_mul_of_pos_right (lt_pow_width v) (by positivity)
  rw [width_eq hlow hhigh, width, Nat.add_right_comm]

theorem width_le_fieldDigits {v : Nat} (h : v ≤ 0xFFFF) : width v ≤ fieldDigits :=
  (width_le_iff (by decide)).mpr (Nat.lt_of_le_of_lt h (by decide))

/-- **An address counts for itself** if it is zero or has four digits, and only then. -/
theorem filled_eq_self_iff {v : Nat} (h : v ≤ 0xFFFF) : filled v = v ↔ v = 0 ∨ 0x1000 ≤ v := by
  unfold filled
  by_cases hv : v = 0
  · simp [hv]
  · have hpos : 0 < v := Nat.pos_of_ne_zero hv
    have hfour : 0x1000 ≤ v ↔ ¬ width v ≤ 3 := by
      rw [width_le_iff (by decide), Nat.not_lt]
      rfl
    rw [Nat.mul_eq_left hv, Nat.pow_eq_one, Nat.sub_eq_zero_iff_le, hfour]
    have hdigits : fieldDigits = 4 := rfl
    omega

/-- Zeros behind an address do not show in its field. -/
theorem filled_mul_pow {v k : Nat} (h : v * 16 ^ k ≤ 0xFFFF) : filled (v * 16 ^ k) = filled v := by
  by_cases hv : v = 0
  · rw [hv, Nat.zero_mul]
  · have hfits := width_le_fieldDigits h
    rw [width_mul_pow hv] at hfits
    have hzeros : fieldDigits - width v = k + (fieldDigits - (width v + k)) := by omega
    rw [filled, filled, width_mul_pow hv, Nat.mul_assoc, ← pow_add, ← hzeros]

/-- Of two addresses that count for the same, the one of fewer digits is the other
without some zeros behind it. -/
theorem exists_eq_mul_pow {a b : Nat} (hb : b ≤ 0xFFFF) (hwidth : width a ≤ width b)
    (h : filled a = filled b) : ∃ k, b = a * 16 ^ k := by
  have hfits := width_le_fieldDigits hb
  refine ⟨width b - width a, ?_⟩
  have hzeros : fieldDigits - width a = (width b - width a) + (fieldDigits - width b) := by omega
  rw [filled, filled, hzeros, pow_add, ← Nat.mul_assoc] at h
  exact (Nat.eq_of_mul_eq_mul_right (by positivity) h).symm

/-- **Two addresses count for the same** exactly if one of them is the other with zeros
behind it. -/
theorem filled_eq_filled_iff {a b : Nat} (ha : a ≤ 0xFFFF) (hb : b ≤ 0xFFFF) :
    filled a = filled b ↔ ∃ k, b = a * 16 ^ k ∨ a = b * 16 ^ k := by
  constructor
  · intro h
    rcases Nat.le_total (width a) (width b) with hwidth | hwidth
    · obtain ⟨k, hk⟩ := exists_eq_mul_pow hb hwidth h
      exact ⟨k, .inl hk⟩
    · obtain ⟨k, hk⟩ := exists_eq_mul_pow ha hwidth h.symm
      exact ⟨k, .inr hk⟩
  · rintro ⟨k, rfl | rfl⟩
    · exact (filled_mul_pow hb).symm
    · exact filled_mul_pow ha

end Hex

/-! ## Codes -/

theorem Operation.value_code (op : Operation) : Hex.value op.code = op.opcode.toNat := by
  unfold Hex.value Operation.code
  rw [String.toList_ofList, Hex.ofDigits_fixed]
  exact Nat.mod_eq_of_lt op.opcode.toNat_lt

/-- The code of an operation and an address of at most four digits. -/
def Operation.directCode (op : Operation) (v : Nat) : String :=
  Hex.padRight (op.code ++ Hex.render v) codeDigits

/-- Such a code fills six digits. -/
theorem Operation.isField_directCode (op : Operation) {v : Nat} (hv : v ≤ 0xFFFF) :
    Hex.IsField 6 (op.directCode v) := by
  have hfits := Hex.width_le_fieldDigits hv
  refine ⟨?_, fun c hc => ?_⟩
  · rw [directCode, Hex.length_padRight, String.length_append, op.length_code, Hex.length_render]
    exact Nat.max_eq_left (Nat.add_le_add_left hfits 2)
  · rw [directCode, Hex.padRight, String.toList_ofList, List.rightpad, List.mem_append,
      String.toList_append, List.mem_append] at hc
    rcases hc with (hbyte | hdigit) | hzero
    · exact (Hex.isField_fixed 2 op.opcode.toNat).2 c hbyte
    · exact (Hex.spells_render v).upper c hdigit
    · rw [List.eq_of_mem_replicate hzero]
      decide

/-- **The value of such a code**: the byte, and the address at the left end of its
field. -/
theorem Operation.value_directCode (op : Operation) {v : Nat} (hv : v ≤ 0xFFFF) :
    Hex.value (op.directCode v) = op.opcode.toNat * 2 ^ 16 + Hex.filled v := by
  have hfits := Hex.width_le_fieldDigits hv
  have hzeros : codeDigits - (op.code ++ Hex.render v).length = fieldDigits - Hex.width v := by
    rw [String.length_append, op.length_code, Hex.length_render]
    exact Nat.add_sub_add_left 2 4 (Hex.width v)
  calc Hex.value (op.directCode v)
      = (op.opcode.toNat * 16 ^ Hex.width v + v) * 16 ^ (fieldDigits - Hex.width v) := by
        rw [directCode, Hex.value_padRight, hzeros, Hex.value_append, op.value_code,
          Hex.length_render, Hex.value_render]
    _ = op.opcode.toNat * 16 ^ fieldDigits + Hex.filled v := by
        rw [Nat.add_mul, Nat.mul_assoc, ← pow_add, Nat.add_sub_cancel' hfits, Hex.filled]
    _ = op.opcode.toNat * 2 ^ 16 + Hex.filled v := rfl

/-- **A statement refers to an address**: it is a machine operation on a label, without an
index register, and the label lies there. -/
def Statement.RefersTo (statements : List Statement) (s : Statement) (op : Operation) (v : Nat) :
    Prop :=
  s.mnemonic = .machine op ∧ ∃ label address, s.operand = some (.direct label)
    ∧ (SymbolTable.all statements).address? label = some address ∧ Hex.value address = v

/-- **Every reference of a finished program is encoded**, with the address in its shortest
spelling. -/
theorem SecondPass.code_of_refersTo {lines : List String} {placed : List Statement}
    (hplaced : (FirstPass.run lines).result = .ok placed) (hfault : (run placed).fault = none)
    {s : Statement} (hs : s ∈ (run placed).statements) {op : Operation} {v : Nat}
    (h : s.RefersTo (run placed).statements op v) : s.code = some (op.directCode v) := by
  obtain ⟨hmachine, label, address, hop, hfound, rfl⟩ := h
  obtain ⟨u, -, rfl⟩ := (tables_fit hplaced).2 label address hfound
  obtain ⟨made, hmade, hcode⟩ := exists_encode_eq hfault hs
  have hbyte : s.mnemonic.byte? = some op.code := by rw [hmachine]; rfl
  have htarget : s.target? = some label := by rw [Statement.target?, hop]
  have hcoding : s.encode (SymbolTable.storage (run placed).statements)
      (SymbolTable.all (run placed).statements) = .ok _ :=
    (Statement.Coding.direct hbyte htarget hfound).encode_eq
  rw [hmade] at hcoding
  rw [hcode, Except.ok.inj hcoding, Hex.value_render]
  rfl

/-- **What direct references encode.** In every program that both passes accept, a machine
operation on a label at an address of at most four digits has a code of six digits. Its
value is the byte of the operation and behind it the address, shifted to the left end of
its field, which is the address itself exactly if that is zero or has four digits. Two
references of one operation have the same code exactly if one of the addresses is the
other times a power of sixteen, and if both addresses have four digits, exactly if they
are the same. -/
theorem direct_code_value {lines : List String} {placed : List Statement}
    (hplaced : (FirstPass.run lines).result = .ok placed)
    (hfault : (SecondPass.run placed).fault = none) :
    (∀ s ∈ (SecondPass.run placed).statements, ∀ op v,
        s.RefersTo (SecondPass.run placed).statements op v → v ≤ 0xFFFF →
        ∃ code, s.code = some code ∧ Hex.IsField 6 code
          ∧ Hex.value code = op.opcode.toNat * 2 ^ 16 + v * 16 ^ (4 - Hex.width v)
          ∧ (Hex.value code = op.opcode.toNat * 2 ^ 16 + v ↔ v = 0 ∨ 0x1000 ≤ v))
      ∧ ∀ s ∈ (SecondPass.run placed).statements, ∀ s' ∈ (SecondPass.run placed).statements,
        ∀ op v v', s.RefersTo (SecondPass.run placed).statements op v →
        s'.RefersTo (SecondPass.run placed).statements op v' → v ≤ 0xFFFF → v' ≤ 0xFFFF →
        (s.code = s'.code ↔ ∃ k, v' = v * 16 ^ k ∨ v = v' * 16 ^ k)
          ∧ (0x1000 ≤ v → 0x1000 ≤ v' → (s.code = s'.code ↔ v = v')) := by
  refine ⟨fun s hs op v hrefers hv => ?_, fun s hs s' hs' op v v' hrefers hrefers' hv hv' => ?_⟩
  · have hvalue := op.value_directCode hv
    refine ⟨op.directCode v, SecondPass.code_of_refersTo hplaced hfault hs hrefers,
      op.isField_directCode hv, hvalue, ?_⟩
    rw [hvalue, Nat.add_left_cancel_iff]
    exact Hex.filled_eq_self_iff hv
  · have hsame : s.code = s'.code ↔ Hex.filled v = Hex.filled v' := by
      rw [SecondPass.code_of_refersTo hplaced hfault hs hrefers,
        SecondPass.code_of_refersTo hplaced hfault hs' hrefers', Option.some_inj]
      constructor
      · intro htext
        have hvalue := congrArg Hex.value htext
        rwa [op.value_directCode hv, op.value_directCode hv', Nat.add_left_cancel_iff] at hvalue
      · intro hfilled
        refine (op.isField_directCode hv).eq_of_value_eq (op.isField_directCode hv') ?_
        rw [op.value_directCode hv, op.value_directCode hv', hfilled]
    refine ⟨hsame.trans (Hex.filled_eq_filled_iff hv hv'), fun hfour hfour' => ?_⟩
    rw [hsame, (Hex.filled_eq_self_iff hv).mpr (.inr hfour),
      (Hex.filled_eq_self_iff hv').mpr (.inr hfour')]

/-- A program with references to addresses of one, two and four digits. -/
def unevenReferences : List String :=
  ["P START 0", "LDA A", "A LDA B", "RESB 42", "B LDA C", "RESB 4045", "C WORD 1"]

/-- A reference of that program. -/
def loadOf (line : Nat) (label : Option String) (target address code : String) : Statement :=
  { line, label, mnemonic := .machine (.memory "LDA" 0), operand := some (.direct target)
    address := some address, code := some code }

/-- The statements that both passes make of it. -/
def unevenStatements : List Statement :=
  [{ line := 1, label := some "P", mnemonic := .directive .start
     operand := some (.literal "0"), address := some "0" },
   loadOf 2 none "A" "0" "003000",
   loadOf 3 (some "A") "B" "3" "003000",
   { line := 4, label := none, mnemonic := .directive .reserveBytes
     operand := some (.literal "42"), address := some "6" },
   loadOf 5 (some "B") "C" "30" "001000",
   { line := 6, label := none, mnemonic := .directive .reserveBytes
     operand := some (.literal "4045"), address := some "33" },
   { line := 7, label := some "C", mnemonic := .directive .word
     operand := some (.literal "1"), address := some "1000", code := some "000001" }]

theorem exists_unevenStatements :
    ∃ placed, (FirstPass.run unevenReferences).result = .ok placed
      ∧ (SecondPass.run placed).fault = none
      ∧ (SecondPass.run placed).statements = unevenStatements := by
  have hseen : (FirstPass.run unevenReferences).result.toOption.map (fun placed =>
      ((SecondPass.run placed).fault, (SecondPass.run placed).statements))
      = some (none, unevenStatements) := by
    decide +kernel
  obtain ⟨placed, hplaced, hseen⟩ := Option.map_eq_some_iff.mp hseen
  obtain ⟨hfault, hstatements⟩ := Prod.mk.inj hseen
  exact ⟨placed, eq_ok_of_toOption hplaced, hfault, hstatements⟩

/-- A reference of that program refers to where its label lies. -/
theorem loadOf_refersTo {line : Nat} {label : Option String} {target address code place : String}
    (h : (SymbolTable.all unevenStatements).address? target = some place) :
    (loadOf line label target address code).RefersTo unevenStatements (.memory "LDA" 0)
      (Hex.value place) :=
  ⟨rfl, target, place, rfl, h, rfl⟩

/-- The reference to four digits is read back from its code, and the references to 3 and to
30 have one code, since the one address is the other times sixteen. -/
theorem direct_code_value_uneven :
    ∃ placed s t t' code, (FirstPass.run unevenReferences).result = .ok placed
      ∧ (SecondPass.run placed).fault = none
      ∧ s ∈ (SecondPass.run placed).statements ∧ t ∈ (SecondPass.run placed).statements
      ∧ t' ∈ (SecondPass.run placed).statements
      ∧ s.RefersTo (SecondPass.run placed).statements (.memory "LDA" 0) 0x1000
      ∧ t.RefersTo (SecondPass.run placed).statements (.memory "LDA" 0) 0x3
      ∧ t'.RefersTo (SecondPass.run placed).statements (.memory "LDA" 0) 0x30
      ∧ s.code = some code ∧ Hex.value code = 0 * 2 ^ 16 + 0x1000 ∧ t.code = t'.code := by
  obtain ⟨placed, hplaced, hfault, hstatements⟩ := exists_unevenStatements
  obtain ⟨hvalue, hpair⟩ := direct_code_value hplaced hfault
  rw [hstatements] at hvalue hpair
  have hs : (loadOf 5 (some "B") "C" "30" "001000").RefersTo unevenStatements
      (.memory "LDA" 0) 0x1000 := loadOf_refersTo (by decide +kernel : _ = some "1000")
  have ht : (loadOf 2 none "A" "0" "003000").RefersTo unevenStatements (.memory "LDA" 0) 0x3 :=
    loadOf_refersTo (by decide +kernel : _ = some "3")
  have ht' : (loadOf 3 (some "A") "B" "3" "003000").RefersTo unevenStatements
      (.memory "LDA" 0) 0x30 := loadOf_refersTo (by decide +kernel : _ = some "30")
  obtain ⟨code, hcode, -, -, hown⟩ := hvalue _ (by decide) _ _ hs (by decide)
  have hsame := (hpair _ (by decide) _ (by decide) _ _ _ ht ht' (by decide) (by decide)).1
  refine ⟨placed, loadOf 5 (some "B") "C" "30" "001000", loadOf 2 none "A" "0" "003000",
    loadOf 3 (some "A") "B" "3" "003000", code, hplaced, hfault, ?_⟩
  rw [hstatements]
  exact ⟨by decide, by decide, by decide, hs, ht, ht', hcode, hown.mpr (.inr le_rfl),
    hsame.mpr ⟨1, .inl rfl⟩⟩

/-- **Short addresses are moved and run together.** The labels lie at 3 and at 30, and the
two references to them have the same code, which holds neither address. -/
theorem short_addresses_collide :
    ∃ placed s s', (FirstPass.run unevenReferences).result = .ok placed
      ∧ (SecondPass.run placed).fault = none
      ∧ s ∈ (SecondPass.run placed).statements ∧ s' ∈ (SecondPass.run placed).statements
      ∧ s.RefersTo (SecondPass.run placed).statements (.memory "LDA" 0) 0x3
      ∧ s'.RefersTo (SecondPass.run placed).statements (.memory "LDA" 0) 0x30
      ∧ s.code = some "003000" ∧ s'.code = some "003000"
      ∧ Hex.value "003000" ≠ 0 * 2 ^ 16 + 0x3 ∧ Hex.value "003000" ≠ 0 * 2 ^ 16 + 0x30 := by
  obtain ⟨placed, hplaced, hfault, hstatements⟩ := exists_unevenStatements
  refine ⟨placed, loadOf 2 none "A" "0" "003000", loadOf 3 (some "A") "B" "3" "003000", hplaced,
    hfault, ?_⟩
  rw [hstatements]
  exact ⟨by decide, by decide, loadOf_refersTo (by decide +kernel : _ = some "3"),
    loadOf_refersTo (by decide +kernel : _ = some "30"), rfl, rfl, by decide, by decide⟩

end TwoPass
