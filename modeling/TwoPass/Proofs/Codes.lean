import TwoPass.Proofs.Assembly
import TwoPass.Proofs.Bits
import TwoPass.Proofs.Symbols

/-!
# What a statement is encoded as

A statement gets its code in one of nine ways, and `Statement.Coding` lists them with
what each of them asks for: a constant that is a numeral, an operand that is
missing, a label that has an address or has none, and so on. Every later fact about
the second pass is a case analysis over that list (`Statement.coding_encode`).

Three facts come from it at once. If the addresses in the symbol tables are
addresses of the machine, as the first pass leaves them, then

* only a constant that is no numeral can end the pass (`Statement.Coding.fault`);
* every code is a numeral (`Statement.Coding.isNumeral`): an operation byte and an
  address of six digits make eight digits at most, which is all that 32 bits hold;
* a statement that calls for a code and gets none is told so, and no other is
  (`Statement.Coding.countP_isError`).

The second half carries them over the whole pass, first for any tables and then for
those of a program that the first pass accepted. There `SecondPass.fault_run_iff` says
where the pass ends, and `SecondPass.errorCount_run` how many errors it reports.
-/

namespace TwoPass

namespace Mnemonic

/-- Whether a mnemonic calls for object code: `START`, `END` and reservations do not.
An unknown one does, although it can get none. -/
def isCoded : Mnemonic → Bool
  | .directive .word => true
  | .directive _ => false
  | _ => true

/-- What the code of a mnemonic begins with: the byte of an operation, and nothing
for a constant. -/
def byte? : Mnemonic → Option String
  | .machine op => some op.code
  | .directive .word => some ""
  | _ => none

/-- An operation byte is two digits. -/
theorem byte?_digits {mnemonic : Mnemonic} {byte : String} (h : mnemonic.byte? = some byte) :
    Hex.AllDigits byte ∧ byte.length ≤ 2 := by
  cases mnemonic with
  | machine op =>
    cases h
    refine ⟨Hex.allDigits_fixed 2 _, ?_⟩
    rw [Operation.code, String.length_ofList, Hex.length_fixed]
  | directive d =>
    cases d with
    | word =>
      cases h
      exact ⟨fun c hc => (nomatch hc), Nat.zero_le 2⟩
    | reserveWords => cases h
    | reserveBytes => cases h
    | start => cases h
    | finish => cases h
  | unknown name => cases h

end Mnemonic

/-- An address of the machine in its spelling is a numeral of at most six
digits. -/
theorem Hex.isNumeral_of_address {address : String} {v : Nat} (hv : v ≤ maxAddress)
    (h : address = render v) : IsNumeral address ∧ address.length ≤ 6 := by
  have hmax : maxAddress = 0xFFFFFF := rfl
  subst h
  refine ⟨(isNumeral_render v).mpr (by omega), ?_⟩
  rw [length_render, width_le_iff (by decide)]
  omega

namespace SymbolTable

/-- A table whose addresses are addresses of the machine, spelt as the first pass
spells them. -/
def Fits (t : SymbolTable) : Prop :=
  ∀ name address, t.address? name = some address → ∃ v ≤ maxAddress, address = Hex.render v

end SymbolTable

namespace Statement

/-- Whether a statement calls for a code and has none. -/
def lacksCode (s : Statement) : Bool := s.mnemonic.isCoded && s.code.isNone

/-- The label that a statement refers to without an index register. The number of a
constant is no label. -/
def target? (s : Statement) : Option String :=
  match s.operand with
  | some (.direct label) => some label
  | some (.literal label) => if s.mnemonic = .directive .word then none else some label
  | _ => none

/-- **What a statement can be encoded as.** -/
inductive Coding (s : Statement) (storage labels : SymbolTable) :
    Except Fault ObjectCode → Prop where
  /-- The statement calls for no code. -/
  | silent (uncoded : s.mnemonic.isCoded = false) :
      Coding s storage labels (.ok { code := none })
  /-- The mnemonic is unknown. -/
  | unknown {name : String} (word : s.mnemonic = .unknown name) :
      Coding s storage labels (.ok { code := none, findings := [.unknownMnemonic name] })
  /-- The statement is a constant, and its number is a numeral. -/
  | constant {number code : String} (word : s.mnemonic = .directive .word)
      (operand : s.operand = some (.literal number))
      (padded : Hex.padLeft number codeDigits = .ok code) :
      Coding s storage labels
        (.ok { code := some code
               findings := if codeDigits < code.length then [.operandTooWide number] else [] })
  /-- The statement is a constant, and its number is no numeral. -/
  | misspelt {number : String} (word : s.mnemonic = .directive .word)
      (operand : s.operand = some (.literal number)) (bad : ¬ Hex.IsNumeral number) :
      Coding s storage labels (.error (.hex s.line s.source (.malformed number)))
  /-- There is no operand. -/
  | bare {byte : String} (begins : s.mnemonic.byte? = some byte) (operand : s.operand = none) :
      Coding s storage labels (.ok { code := some (Hex.padRight byte codeDigits) })
  /-- The operand refers to a label without an address. -/
  | undefined {byte label : String} (begins : s.mnemonic.byte? = some byte)
      (refers : (s.target? = some label ∧ labels.address? label = none)
        ∨ ∃ index, s.operand = some (.indexed label index) ∧ storage.address? label = none) :
      Coding s storage labels
        (.ok { code := none, findings := [.unresolvedSymbol s.mnemonic.name label] })
  /-- The operand refers to a label. -/
  | direct {byte label address : String} (begins : s.mnemonic.byte? = some byte)
      (refers : s.target? = some label) (found : labels.address? label = some address) :
      Coding s storage labels
        (.ok { code := some (Hex.padRight (byte ++ address) codeDigits) })
  /-- The operand refers to a label and an index register. -/
  | indexed {byte label index address field : String} (begins : s.mnemonic.byte? = some byte)
      (operand : s.operand = some (.indexed label index))
      (found : storage.address? label = some address) (made : indexedField address = .ok field) :
      Coding s storage labels (.ok { code := some (byte ++ field) })
  /-- The address behind an index register makes no field. -/
  | unfit {label index address : String} {cause : HexFault}
      (operand : s.operand = some (.indexed label index))
      (found : storage.address? label = some address)
      (failed : indexedField address = .error cause) :
      Coding s storage labels (.error (.hex s.line s.source cause))

variable {s : Statement} {storage labels : SymbolTable}

/-- An operand behind a byte is nothing, a label, or a label with an index. -/
theorem coding_encodeReference {byte : String} (hbyte : s.mnemonic.byte? = some byte)
    (hnumber : ∀ number, s.operand = some (.literal number) → s.mnemonic ≠ .directive .word) :
    s.Coding storage labels (s.encodeReference storage labels byte) := by
  -- a label without an index register is looked up the same way, whatever kind it is
  have hdirect : ∀ {label : String} {result : Except Fault ObjectCode},
      s.target? = some label →
      (labels.address? label = none →
        result = .ok { code := none, findings := [.unresolvedSymbol s.mnemonic.name label] }) →
      (∀ address, labels.address? label = some address →
        result = .ok { code := some (Hex.padRight (byte ++ address) codeDigits) }) →
      s.Coding storage labels result := by
    intro label result htarget hnone hsome
    cases hfound : labels.address? label with
    | none =>
      rw [hnone hfound]
      exact .undefined hbyte (.inl ⟨htarget, hfound⟩)
    | some address =>
      rw [hsome address hfound]
      exact .direct hbyte htarget hfound
  unfold encodeReference
  cases hop : s.operand with
  | none => exact .bare hbyte hop
  | some operand =>
    cases operand with
    | literal label =>
      refine hdirect (by rw [target?, hop]; exact if_neg (hnumber label hop))
        (fun hfound => ?_) fun address hfound => ?_
      · simp only [hfound]
      · simp only [hfound]
    | direct label =>
      refine hdirect (by rw [target?, hop]) (fun hfound => ?_) fun address hfound => ?_
      · simp only [hfound]
      · simp only [hfound]
    | indexed label index =>
      cases hfound : storage.address? label with
      | none =>
        simp only [hfound]
        exact .undefined hbyte (.inr ⟨index, hop, hfound⟩)
      | some address =>
        cases hfield : indexedField address with
        | error cause =>
          simp only [hfound, hfield]
          exact .unfit hop hfound hfield
        | ok field =>
          simp only [hfound, hfield]
          exact .indexed hbyte hop hfound hfield

/-- **The list is complete.** -/
theorem coding_encode (s : Statement) (storage labels : SymbolTable) :
    s.Coding storage labels (s.encode storage labels) := by
  unfold encode
  split
  · next name hname => exact .unknown hname
  · next op hop =>
    refine coding_encodeReference (by rw [hop]; rfl) fun _ _ => ?_
    rw [hop]
    exact nofun
  · next hword =>
    split
    · next number hop =>
      unfold encodeConstant
      cases hpadded : Hex.padLeft number codeDigits with
      | ok code =>
        have hcoding : s.Coding storage labels _ := .constant hword hop hpadded
        simp only
        split at hcoding
        · next hwide => rwa [if_pos hwide]
        · next hwide => rwa [if_neg hwide]
      | error cause =>
        have hnumber : ¬ Hex.IsNumeral number := fun hnumber => by
          rw [Hex.padLeft_eq_ok_iff.mpr ⟨hnumber, rfl⟩] at hpadded
          cases hpadded
        rw [Hex.padLeft_eq_error hnumber] at hpadded
        cases hpadded
        exact .misspelt hword hop hnumber
    · next hop =>
      refine coding_encodeReference (by rw [hword]; rfl) fun number hnumber => ?_
      exact absurd hnumber (hop number)
  · next d hword hd =>
    refine .silent ?_
    rw [hd]
    cases d with
    | word => exact absurd rfl hword
    | reserveWords => rfl
    | reserveBytes => rfl
    | start => rfl
    | finish => rfl

/-! ## Codes from addresses of the machine -/

/-- **Only a constant that is no numeral ends the pass.** -/
theorem Coding.fault {fault : Fault} (h : s.Coding storage labels (.error fault))
    (hstorage : storage.Fits) :
    ∃ number, s.mnemonic = .directive .word ∧ s.operand = some (.literal number)
      ∧ ¬ Hex.IsNumeral number ∧ fault = .hex s.line s.source (.malformed number) := by
  cases h with
  | misspelt hword hop hbad => exact ⟨_, hword, hop, hbad, rfl⟩
  | unfit hop hfound hfailed =>
    obtain ⟨v, hv, haddress⟩ := hstorage _ _ hfound
    rw [indexedField_eq_ok (Hex.isNumeral_of_address hv haddress).1] at hfailed
    cases hfailed

/-- **Every code is a numeral.** -/
theorem Coding.isNumeral {made : ObjectCode} {code : String}
    (h : s.Coding storage labels (.ok made)) (hstorage : storage.Fits) (hlabels : labels.Fits)
    (hcode : made.code = some code) : Hex.IsNumeral code := by
  cases h with
  | silent _ => cases hcode
  | unknown _ => cases hcode
  | undefined _ _ => cases hcode
  | constant _ _ hpadded =>
    cases hcode
    obtain ⟨hnumber, rfl⟩ := Hex.padLeft_eq_ok_iff.mp hpadded
    exact hnumber.leftpad codeDigits
  | bare hbyte _ =>
    cases hcode
    obtain ⟨hdigits, hlen⟩ := Mnemonic.byte?_digits hbyte
    exact Hex.isNumeral_padRight hdigits (by omega)
  | direct hbyte _ hfound =>
    cases hcode
    obtain ⟨hdigits, hlen⟩ := Mnemonic.byte?_digits hbyte
    obtain ⟨v, hv, haddress⟩ := hlabels _ _ hfound
    obtain ⟨hnumeral, hsix⟩ := Hex.isNumeral_of_address hv haddress
    refine Hex.isNumeral_padRight (hdigits.append hnumeral.allDigits) ?_
    rw [String.length_append]
    omega
  | indexed hbyte _ hfound hmade =>
    cases hcode
    obtain ⟨hdigits, hlen⟩ := Mnemonic.byte?_digits hbyte
    obtain ⟨v, hv, haddress⟩ := hstorage _ _ hfound
    obtain ⟨hnumeral, hsix⟩ := Hex.isNumeral_of_address hv haddress
    obtain ⟨hfield, hfieldDigits⟩ := length_indexedField hnumeral (by omega) hmade
    have hfour : fieldDigits = 4 := rfl
    refine Hex.isNumeral_of_length_le (Hex.ne_empty_of_length_pos ?_)
      (hdigits.append hfieldDigits) ?_
    · rw [String.length_append]
      omega
    · rw [String.length_append]
      omega

/-- **A statement that calls for a code and gets none is told so once**, and no
other statement is told of an error. -/
theorem Coding.countP_isError {made : ObjectCode} (h : s.Coding storage labels (.ok made)) :
    (made.findings.map (Diagnostic.mk s.line)).countP Diagnostic.isError
      = if s.mnemonic.isCoded && made.code.isNone then 1 else 0 := by
  have hcoded : ∀ {byte : String}, s.mnemonic.byte? = some byte → s.mnemonic.isCoded = true := by
    intro byte hbyte
    unfold Mnemonic.byte? at hbyte
    unfold Mnemonic.isCoded
    split at hbyte
    · next hop => rw [hop]
    · next hword => rw [hword]
    · cases hbyte
  cases h with
  | silent huncoded => simp [huncoded]
  | unknown hword =>
    rw [hword]
    rfl
  | constant _ _ _ =>
    rw [Option.isNone_some, Bool.and_false]
    split <;> rfl
  | bare _ _ => simp
  | undefined hbyte _ =>
    rw [hcoded hbyte]
    rfl
  | direct _ _ _ => simp
  | indexed _ _ _ _ => simp

end Statement

/-! ## The whole pass -/

namespace SecondPass

section RunWith

variable {storage labels : SymbolTable} {statements : List Statement}

/-- **The pass ends at the first statement that cannot be encoded**, with its
fault. -/
theorem fault_runWith_iff {fault : Fault} :
    (runWith storage labels statements).fault = some fault
      ↔ ∃ (k : Nat) (s : Statement), statements[k]? = some s
        ∧ s.encode storage labels = .error fault
        ∧ ∀ j < k, ∀ t : Statement, statements[j]? = some t →
          ∃ made, t.encode storage labels = .ok made := by
  induction statements with
  | nil => exact ⟨fun h => (nomatch h), fun ⟨_, _, hs, _⟩ => nomatch hs⟩
  | cons s more ih =>
    rw [runWith]
    cases hmade : s.encode storage labels with
    | error cause =>
      constructor
      · intro h
        cases h
        exact ⟨0, s, rfl, hmade, fun j hj => absurd hj (Nat.not_lt_zero j)⟩
      · rintro ⟨k, t, ht, herror, hbefore⟩
        cases k with
        | zero =>
          cases ht
          exact congrArg some (Except.error.inj (hmade.symm.trans herror))
        | succ k =>
          obtain ⟨made, hok⟩ := hbefore 0 k.succ_pos s rfl
          rw [hmade] at hok
          cases hok
    | ok made =>
      refine ih.trans ⟨?_, ?_⟩
      · rintro ⟨k, t, ht, herror, hbefore⟩
        refine ⟨k + 1, t, ht, herror, fun j hj u hu => ?_⟩
        cases j with
        | zero =>
          cases hu
          exact ⟨made, hmade⟩
        | succ j => exact hbefore j (Nat.lt_of_succ_lt_succ hj) u hu
      · rintro ⟨k, t, ht, herror, hbefore⟩
        cases k with
        | zero =>
          cases ht
          rw [hmade] at herror
          cases herror
        | succ k =>
          exact ⟨k, t, ht, herror, fun j hj u hu => hbefore (j + 1) (Nat.succ_lt_succ hj) u hu⟩

/-- **The pass reports as many errors as it leaves statements without a code** that
call for one. -/
theorem errorCount_runWith (h : (runWith storage labels statements).fault = none) :
    Diagnostic.errorCount (Event.diagnostics (runWith storage labels statements).events)
      = (runWith storage labels statements).statements.countP Statement.lacksCode := by
  induction statements with
  | nil => rfl
  | cons s more ih =>
    have hcoding := s.coding_encode storage labels
    rw [runWith] at h ⊢
    cases hmade : s.encode storage labels with
    | error cause =>
      rw [hmade] at h
      cases h
    | ok made =>
      rw [hmade] at h hcoding
      have hcount := hcoding.countP_isError
      have hrest := ih h
      rw [Diagnostic.errorCount] at hrest
      simp only [Diagnostic.errorCount, Event.diagnostics_append, Event.diagnostics_map_finding,
        List.countP_append, List.countP_cons, hcount, hrest, Statement.lacksCode]
      exact Nat.add_comm _ _

end RunWith

end SecondPass

/-! ## The pass behind a first pass -/

namespace FirstPass

variable {lines : List String} {placed : List Statement}

/-- The first pass gives addresses of the machine. -/
theorem address_of_mem (h : (run lines).result = .ok placed) {s : Statement} (hs : s ∈ placed)
    {address : String} (ha : s.address = some address) :
    ∃ v ≤ maxAddress, address = Hex.render v := by
  obtain ⟨hgood, hlen, hall⟩ := run_plain h
  obtain ⟨k, hk⟩ := List.mem_iff_getElem?.mp hs
  obtain ⟨t, -, rfl⟩ := hall k s hk
  obtain ⟨v, hv, rfl⟩ := Option.map_eq_some_iff.mp ha
  refine ⟨v, Nat.le_of_not_lt fun hhigh => ?_, rfl⟩
  have hlt := (List.getElem?_eq_some_iff.mp hk).1
  exact hgood k (hlen ▸ hlt) (.inr (.inr (.inr ⟨v, hv, hhigh⟩)))

theorem storage_fits (h : (run lines).result = .ok placed) :
    (SymbolTable.storage placed).Fits := fun _ _ hfound => by
  obtain ⟨s, hs, ha⟩ := SymbolTable.exists_mem_of_address? (.inr hfound)
  exact address_of_mem h hs ha

theorem all_fits (h : (run lines).result = .ok placed) :
    (SymbolTable.all placed).Fits := fun _ _ hfound => by
  obtain ⟨s, hs, ha⟩ := SymbolTable.exists_mem_of_address? (.inl hfound)
  exact address_of_mem h hs ha

end FirstPass

namespace Plain

/-- The number on a line that is a constant. -/
def constant? (text : String) : Option String :=
  (parts? text).bind fun parts => if parts.1 = "WORD" then parts.2 else none

/-- A line is a constant whose number is no numeral. -/
def BadConstant (text : String) : Prop :=
  ∃ number, constant? text = some number ∧ ¬ Hex.IsNumeral number

instance : DecidablePred BadConstant := fun text =>
  inferInstanceAs (Decidable (∃ number ∈ constant? text, ¬ Hex.IsNumeral number))

/-- A statement is a constant with a number if its line is. -/
theorem constant?_of_read {line : Nat} {text number : String} {s : Statement}
    (h : Statement.read line text = .ok s) :
    constant? text = some number
      ↔ s.mnemonic = .directive .word ∧ s.operand = some (.literal number) := by
  obtain ⟨mnemonic, operand, hparts, hm, hop, -⟩ := parts?_of_read h
  have hword : s.mnemonic = .directive .word ↔ mnemonic = "WORD" := by
    rw [hm, Mnemonic.lookup_eq_directive_iff]
    rfl
  rw [constant?, hparts, Option.bind_some, hword]
  by_cases hname : mnemonic = "WORD"
  · have hliteral : ∀ field, (Mnemonic.lookup mnemonic).operand field = .literal field := by
      intro field
      rw [← hm, hword.mpr hname]
      rfl
    rw [if_pos hname, and_iff_right hname, hop]
    cases operand with
    | none => simp
    | some field => simp [hliteral]
  · simp [hname]

end Plain

namespace SecondPass

variable {lines : List String} {placed : List Statement}

/-- **Exactly a constant that is no numeral cannot be encoded.** -/
theorem encode_eq_error_iff (hplaced : (FirstPass.run lines).result = .ok placed) {k : Nat}
    {s : Statement} (hs : placed[k]? = some s) (labels : SymbolTable) {fault : Fault} :
    s.encode (SymbolTable.storage placed) labels = .error fault
      ↔ ∃ number, Plain.constant? (Plain.textAt lines k) = some number
        ∧ ¬ Hex.IsNumeral number ∧ fault = .hex (k + 1) s.source (.malformed number) := by
  have hat := (FirstPass.run_plain hplaced).2.2 k s hs
  have hconstant : ∀ number, Plain.constant? (Plain.textAt lines k) = some number
      ↔ s.mnemonic = .directive .word ∧ s.operand = some (.literal number) := by
    obtain ⟨t, hread, rfl⟩ := hat
    exact fun number => (Plain.constant?_of_read hread).trans Iff.rfl
  rw [← hat.line]
  constructor
  · intro h
    have hcoding := s.coding_encode (SymbolTable.storage placed) labels
    rw [h] at hcoding
    obtain ⟨number, hword, hop, hbad, hfault⟩ := hcoding.fault (FirstPass.storage_fits hplaced)
    exact ⟨number, (hconstant number).mpr ⟨hword, hop⟩, hbad, hfault⟩
  · rintro ⟨number, hnumber, hbad, rfl⟩
    obtain ⟨hword, hop⟩ := (hconstant number).mp hnumber
    rw [Statement.encode, hword]
    simp only [hop, Statement.encodeConstant, Hex.padLeft_eq_error hbad]

/-- **The pass ends exactly at the first constant that is no numeral.** -/
theorem fault_run_iff (hplaced : (FirstPass.run lines).result = .ok placed) {fault : Fault} :
    (run placed).fault = some fault
      ↔ ∃ (k : Nat) (s : Statement) (number : String), placed[k]? = some s
        ∧ Plain.constant? (Plain.textAt lines k) = some number ∧ ¬ Hex.IsNumeral number
        ∧ (∀ j < k, ¬ Plain.BadConstant (Plain.textAt lines j))
        ∧ fault = .hex (k + 1) s.source (.malformed number) := by
  have hlen := (FirstPass.run_plain hplaced).2.1
  refine fault_runWith_iff.trans ⟨?_, ?_⟩
  · rintro ⟨k, s, hs, herror, hbefore⟩
    obtain ⟨number, hnumber, hbad, hfault⟩ := (encode_eq_error_iff hplaced hs _).mp herror
    refine ⟨k, s, number, hs, hnumber, hbad, fun j hj => ?_, hfault⟩
    rintro ⟨other, hother, hotherBad⟩
    have hlt := (List.getElem?_eq_some_iff.mp hs).1
    have ht := List.getElem?_eq_getElem (Nat.lt_trans hj hlt)
    obtain ⟨made, hok⟩ := hbefore j hj _ ht
    rw [(encode_eq_error_iff hplaced ht _).mpr ⟨other, hother, hotherBad, rfl⟩] at hok
    cases hok
  · rintro ⟨k, s, number, hs, hnumber, hbad, hbefore, hfault⟩
    refine ⟨k, s, hs, (encode_eq_error_iff hplaced hs _).mpr ⟨number, hnumber, hbad, hfault⟩, ?_⟩
    intro j hj t ht
    cases hmade : t.encode (SymbolTable.storage placed) (SymbolTable.all placed) with
    | ok made => exact ⟨made, rfl⟩
    | error other =>
      obtain ⟨n, hn, hnbad, -⟩ := (encode_eq_error_iff hplaced ht _).mp hmade
      exact absurd ⟨n, hn, hnbad⟩ (hbefore j hj)

/-- The pass comes to its end exactly if every constant is a numeral. -/
theorem fault_run_eq_none_iff (hplaced : (FirstPass.run lines).result = .ok placed) :
    (run placed).fault = none ↔ ∀ text ∈ lines, ¬ Plain.BadConstant text := by
  have hlen := (FirstPass.run_plain hplaced).2.1
  constructor
  · intro hnone text htext hbad
    obtain ⟨i, hi, rfl⟩ := List.getElem_of_mem htext
    rw [← Plain.textAt_eq_getElem hi] at hbad
    have hsome : ∃ k, k < lines.length ∧ Plain.BadConstant (Plain.textAt lines k) := ⟨i, hi, hbad⟩
    obtain ⟨hlt, number, hnumber, hnumberBad⟩ := Nat.find_spec hsome
    have hs := List.getElem?_eq_getElem (hlt.trans_eq hlen.symm)
    have hfault := (fault_run_iff hplaced).mpr ⟨_, _, number, hs, hnumber, hnumberBad,
      fun j hj hearlier => Nat.find_min hsome hj ⟨Nat.lt_trans hj hlt, hearlier⟩, rfl⟩
    rw [hnone] at hfault
    cases hfault
  · intro hgood
    cases hfault : (run placed).fault with
    | none => rfl
    | some fault =>
      obtain ⟨k, s, number, hs, hnumber, hbad, -, -⟩ := (fault_run_iff hplaced).mp hfault
      have hlt := hlen ▸ (List.getElem?_eq_some_iff.mp hs).1
      refine absurd ⟨number, hnumber, hbad⟩ (hgood _ ?_)
      rw [Plain.textAt_eq_getElem hlt]
      exact List.getElem_mem hlt

/-- **The pass makes numerals.** -/
theorem isNumeral_code (hplaced : (FirstPass.run lines).result = .ok placed)
    (hfault : (run placed).fault = none) {t : Statement} (ht : t ∈ (run placed).statements)
    {code : String} (hcode : t.code = some code) : Hex.IsNumeral code := by
  obtain ⟨k, hk⟩ := List.mem_iff_getElem?.mp ht
  obtain ⟨s, -, made, hmade, rfl⟩ := exists_of_forall₂ (forall₂_runWith hfault) hk
  have hcoding := s.coding_encode (SymbolTable.storage placed) (SymbolTable.all placed)
  rw [hmade] at hcoding
  exact hcoding.isNumeral (FirstPass.storage_fits hplaced) (FirstPass.all_fits hplaced) hcode

/-- **The pass reports as many errors as it leaves statements without a code** that
call for one. -/
theorem errorCount_run (hfault : (run placed).fault = none) :
    Diagnostic.errorCount (run placed).diagnostics
      = (run placed).statements.countP Statement.lacksCode := by
  rw [diagnostics, run, Event.diagnostics_append, Event.diagnostics_map_symbolKnown,
    List.nil_append]
  exact errorCount_runWith hfault

end SecondPass

end TwoPass
