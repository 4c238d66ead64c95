import TwoPass.Proofs.References
import TwoPass.Proofs.Warnings

/-!
# Programs that are written alike

Two programs may lie at different places in memory and still say the same. Here they are
compared statement by statement: `Statement.Alike` asks for the same line, label, mnemonic
and operand, and leaves open where the statements lie. Only a `START` may have another
number behind it, since that number is the place.

Most of what the assembler reports does not depend on places. The first pass looks at
labels, lines and counts (`Statement.Alike.warningsFrom_eq`). The second looks at
addresses, but whether it finds a label or not is all that its report depends on
(`Statement.Alike.exists_encode`).
-/

namespace TwoPass

/-! ## Groups -/

/-- **Lists that correspond are cut into groups that correspond.** -/
theorem rel_groups {α β : Type} {R : α → β → Prop} {items : List α} {others : List β}
    (h : List.Forall₂ R items others) (size : Nat) :
    List.Forall₂ (fun g g' => R g.1 g'.1 ∧ List.Forall₂ R g.2 g'.2)
      (groups size items) (groups size others) := by
  unfold groups
  simp only
  rw [h.length_eq]
  refine List.rel_filterMap ?_ (List.forall₂_same.mpr fun i _ => (rfl : i = i))
  rintro i _ rfl
  dsimp only
  have hstretch := List.forall₂_take (max 1 size) (List.forall₂_drop (i * max 1 size) h)
  generalize (items.drop (i * max 1 size)).take (max 1 size) = stretch at hstretch ⊢
  generalize (others.drop (i * max 1 size)).take (max 1 size) = stretch' at hstretch ⊢
  cases hstretch with
  | nil => exact .none
  | cons hfirst hothers => exact .some ⟨hfirst, hothers⟩

/-! ## Statements and tables that correspond -/

/-- The same names have addresses in both tables. -/
def SymbolTable.Matches (t t' : SymbolTable) : Prop :=
  ∀ name, (t'.address? name).isSome = (t.address? name).isSome

namespace SymbolTable.Matches

variable {t t' : SymbolTable} {name : String}

theorem eq_none (h : t.Matches t') (hnone : t.address? name = none) :
    t'.address? name = none := by
  have hsame := h name
  rw [hnone, Option.isSome_none, Option.isSome_eq_false_iff] at hsame
  exact Option.isNone_iff_eq_none.mp hsame

theorem exists_eq_some (h : t.Matches t') {address : String}
    (hsome : t.address? name = some address) : ∃ address', t'.address? name = some address' := by
  refine Option.isSome_iff_exists.mp ((h name).trans ?_)
  rw [hsome, Option.isSome_some]

end SymbolTable.Matches

namespace Statement

/-- **Two statements are written alike**: they have the same line, label, mnemonic and
operand, but for the number of a `START`. -/
structure Alike (s s' : Statement) : Prop where
  /-- They are on the same line. -/
  line : s'.line = s.line
  /-- They define the same label. -/
  label : s'.label = s.label
  /-- They have the same mnemonic. -/
  mnemonic : s'.mnemonic = s.mnemonic
  /-- They have the same operand, unless they are `START` with a number each. -/
  operand : s'.operand = s.operand ∨ s.isStart = true
    ∧ ∃ origin origin', s.operand = some (.literal origin) ∧ s'.operand = some (.literal origin')

namespace Alike

variable {s s' : Statement} {before before' : List Statement}

theorem isStart (h : s.Alike s') : s'.isStart = s.isStart := by
  rw [Statement.isStart, Statement.isStart, h.mnemonic]

theorem isEnd (h : s.Alike s') : s'.isEnd = s.isEnd := by
  rw [Statement.isEnd, Statement.isEnd, h.mnemonic]

/-- Codes do not enter. -/
theorem uncoded_iff : s.uncoded.Alike s'.uncoded ↔ s.Alike s' :=
  ⟨fun h => ⟨h.line, h.label, h.mnemonic, h.operand⟩,
    fun h => ⟨h.line, h.label, h.mnemonic, h.operand⟩⟩

/-- Apart from `START` the operand is the same. -/
theorem operand_eq (h : s.Alike s') (hstart : s.isStart = false) : s'.operand = s.operand := by
  rcases h.operand with hop | ⟨hother, -⟩
  · exact hop
  · rw [hstart] at hother
    cases hother

/-- They take the same memory, and the same is said about it. -/
theorem size_eq (h : s.Alike s') : s'.size = s.size := by
  unfold size
  rw [h.mnemonic]
  cases hstart : s.isStart with
  | true =>
    rw [of_decide_eq_true hstart]
  | false =>
    have hreserve : s'.reserve = s.reserve := by
      funext unit
      unfold reserve count? operandText
      rw [h.operand_eq hstart, h.line, h.mnemonic]
    rw [hreserve]

theorem bytes_eq (h : s.Alike s') : s'.bytes = s.bytes := by
  rw [bytes, bytes, h.size_eq]

/-- Both have an origin or neither. -/
theorem originFindings_eq (h : s.Alike s') : s'.originFindings = s.originFindings := by
  unfold originFindings
  rcases h.operand with hop | ⟨-, origin, origin', hop, hop'⟩
  · rw [hop, h.line]
  · rw [hop, hop']

/-- Labels are found at statements that are alike. -/
theorem rel_find?_label (h : List.Forall₂ Alike before before') (name : String) :
    Option.Rel Alike (before.find? (·.label = some name)) (before'.find? (·.label = some name)) :=
  rel_find? h fun s s' halike => by rw [halike.label]

theorem labelFindings_eq (h : s.Alike s') (hbefore : List.Forall₂ Alike before before') :
    s'.labelFindings before' = s.labelFindings before := by
  unfold labelFindings
  rw [h.label, h.line]
  cases s.label with
  | none => rfl
  | some name =>
    simp only [Option.bind_some]
    have hfirst := rel_find?_label hbefore name
    generalize before.find? (·.label = some name) = first? at hfirst ⊢
    generalize before'.find? (·.label = some name) = first?' at hfirst ⊢
    cases hfirst with
    | none => rfl
    | some halike => simp only [Option.map_some, halike.line]

/-- The first pass says the same about statements that are alike. -/
theorem warnings_eq (h : s.Alike s') (hbefore : List.Forall₂ Alike before before')
    (haddress : s'.address.isSome = s.address.isSome) :
    s'.warnings before' = s.warnings before := by
  unfold warnings
  rw [h.labelFindings_eq hbefore, h.isStart, h.originFindings_eq, h.size_eq, h.line, haddress]

/-- **The first pass says the same about programs that are alike**, if the same
statements have addresses. -/
theorem warningsFrom_eq {statements statements' : List Statement}
    (h : List.Forall₂ (fun s s' => s.Alike s' ∧ s'.address.isSome = s.address.isSome)
      statements statements') (hbefore : List.Forall₂ Alike before before') :
    warningsFrom before' statements' = warningsFrom before statements := by
  induction h generalizing before before' with
  | nil => rfl
  | @cons s s' more more' hfirst _ ih =>
    rw [warningsFrom, warningsFrom, hfirst.1.warnings_eq hbefore hfirst.2,
      ih (List.rel_append hbefore (.cons hfirst.1 .nil))]

/-! ## Codes -/

variable {storage storage' labels labels' : SymbolTable}

/-- A statement with a byte is no `START`. -/
theorem isStart_of_byte? {byte : String} (h : s.mnemonic.byte? = some byte) :
    s.isStart = false := by
  unfold Statement.isStart
  refine decide_eq_false fun hstart => ?_
  rw [hstart] at h
  cases h

/-- **The second pass says the same about statements that are alike**, and gives both a
code or neither, if the same labels have addresses. -/
theorem exists_encode (h : s.Alike s')
    (hstorage : storage.Matches storage') (hlabels : labels.Matches labels')
    (hfits : storage'.Fits) {made : ObjectCode} (hmade : s.encode storage labels = .ok made) :
    ∃ made', s'.encode storage' labels' = .ok made'
      ∧ made'.findings = made.findings ∧ made'.code.isSome = made.code.isSome := by
  have hcoding := s.coding_encode storage labels
  rw [hmade] at hcoding
  have hbyte {byte : String} (hbegins : s.mnemonic.byte? = some byte) :
      s'.mnemonic.byte? = some byte := by
    rw [h.mnemonic, hbegins]
  have hoperand {byte : String} (hbegins : s.mnemonic.byte? = some byte) :
      s'.operand = s.operand := h.operand_eq (isStart_of_byte? hbegins)
  have htarget {byte : String} (hbegins : s.mnemonic.byte? = some byte) :
      s'.target? = s.target? := by
    rw [target?, target?, hoperand hbegins, h.mnemonic]
  -- the same constructor is open to the other statement, with the other address in it
  cases hcoding with
  | silent huncoded => exact ⟨_, (Coding.silent (h.mnemonic ▸ huncoded)).encode_eq, rfl, rfl⟩
  | unknown hname => exact ⟨_, (Coding.unknown (h.mnemonic ▸ hname)).encode_eq, rfl, rfl⟩
  | constant hword hop hpadded =>
    have hbegins : s.mnemonic.byte? = some "" := by rw [hword]; rfl
    exact ⟨_, (Coding.constant (h.mnemonic ▸ hword) (hoperand hbegins ▸ hop) hpadded).encode_eq,
      rfl, rfl⟩
  | bare hbegins hop =>
    exact ⟨_, (Coding.bare (hbyte hbegins) (hoperand hbegins ▸ hop)).encode_eq, rfl, rfl⟩
  | undefined hbegins hrefers =>
    rw [← h.mnemonic]
    refine ⟨_, (Coding.undefined (hbyte hbegins) ?_).encode_eq, rfl, rfl⟩
    rcases hrefers with ⟨hrefers, hnone⟩ | ⟨index, hop, hnone⟩
    · exact .inl ⟨htarget hbegins ▸ hrefers, hlabels.eq_none hnone⟩
    · exact .inr ⟨index, hoperand hbegins ▸ hop, hstorage.eq_none hnone⟩
  | direct hbegins hrefers hfound =>
    obtain ⟨address', hfound'⟩ := hlabels.exists_eq_some hfound
    exact ⟨_, (Coding.direct (hbyte hbegins) (htarget hbegins ▸ hrefers) hfound').encode_eq,
      rfl, rfl⟩
  | indexed hbegins hop hfound hfield =>
    obtain ⟨address', hfound'⟩ := hstorage.exists_eq_some hfound
    obtain ⟨u, hu, haddress⟩ := hfits _ _ hfound'
    have hfield' := indexedField_eq_ok (Hex.isNumeral_of_address hu haddress).1
    exact ⟨_, (Coding.indexed (hbyte hbegins) (hoperand hbegins ▸ hop) hfound' hfield').encode_eq,
      rfl, rfl⟩

/-- **The second pass says the same about finished statements that are alike**, and
either both have a code or neither. -/
theorem findings_eq (h : s.Alike s') (hstorage : storage.Matches storage')
    (hlabels : labels.Matches labels') (hfits : storage'.Fits) {made made' : ObjectCode}
    (hmade : s.encode storage labels = .ok made) (hcode : s.code = made.code)
    (hmade' : s'.encode storage' labels' = .ok made') (hcode' : s'.code = made'.code) :
    s'.findings storage' labels' = s.findings storage labels
      ∧ s'.code.isSome = s.code.isSome := by
  obtain ⟨found, hfound, hfindings, hsome⟩ := h.exists_encode hstorage hlabels hfits hmade
  obtain rfl : made' = found := Except.ok.inj (hmade'.symm.trans hfound)
  refine ⟨?_, ?_⟩
  · rw [findings, findings, hmade, hmade']
    exact hfindings
  · rw [hcode, hcode', hsome]

end Alike

end Statement

/-- **The first pass says the same about programs that are alike**, if the same
statements come out with addresses. -/
theorem FirstPass.diagnostics_of_alike {lines lines' : List String}
    {placed placed' : List Statement} (hplaced : (run lines).result = .ok placed)
    (hplaced' : (run lines').result = .ok placed')
    (h : List.Forall₂ (fun s s' => s.Alike s' ∧ s'.address.isSome = s.address.isSome)
      placed placed') : (run lines').diagnostics = (run lines).diagnostics := by
  rw [diagnostics_run hplaced, diagnostics_run hplaced', Statement.Alike.warningsFrom_eq h .nil]

namespace SecondPass

variable {lines lines' : List String} {placed placed' : List Statement}

/-- **The second pass says the same about programs that are alike**, and gives the same
statements a code, if the same labels have addresses. -/
theorem findings_of_alike (hplaced : (FirstPass.run lines).result = .ok placed)
    (hfault : (run placed).fault = none) (hplaced' : (FirstPass.run lines').result = .ok placed')
    (hfault' : (run placed').fault = none)
    (halike : List.Forall₂ Statement.Alike (run placed).statements (run placed').statements)
    (hstorage : (SymbolTable.storage (run placed).statements).Matches
      (SymbolTable.storage (run placed').statements))
    (hlabels : (SymbolTable.all (run placed).statements).Matches
      (SymbolTable.all (run placed').statements)) :
    (run placed').diagnostics = (run placed).diagnostics
      ∧ List.Forall₂ (fun s s' => s'.code.isSome = s.code.isSome)
        (run placed).statements (run placed').statements := by
  have hown : List.Forall₂
      (fun s s' => s'.line = s.line
        ∧ s'.findings (SymbolTable.storage (run placed').statements)
            (SymbolTable.all (run placed').statements)
          = s.findings (SymbolTable.storage (run placed).statements)
            (SymbolTable.all (run placed).statements)
        ∧ s'.code.isSome = s.code.isSome)
      (run placed).statements (run placed').statements := by
    refine (forall₂_mem halike).imp ?_
    rintro s s' ⟨hs, hs', halike⟩
    obtain ⟨made, hmade, hcode⟩ := exists_encode_eq hfault hs
    obtain ⟨made', hmade', hcode'⟩ := exists_encode_eq hfault' hs'
    exact ⟨halike.line, halike.findings_eq hstorage hlabels (tables_fit hplaced').1
      hmade hcode hmade' hcode'⟩
  refine ⟨?_, hown.imp fun s s' hsame => hsame.2.2⟩
  rw [diagnostics_run hplaced hfault, diagnostics_run hplaced' hfault']
  refine flatMap_eq_of_forall₂ (hown.imp ?_)
  rintro s s' ⟨hline, hfindings, -⟩
  rw [hline, hfindings]

end SecondPass

end TwoPass
