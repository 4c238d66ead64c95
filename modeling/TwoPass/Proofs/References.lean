import TwoPass.Proofs.Recoding
import TwoPass.Proofs.Strictness

/-!
# Codes in a finished program

The second pass encodes a statement against the symbol tables of the statements that
came in. Since codes do not enter the tables, these are also the tables of the
statements that come out, and so a finished program explains itself: every statement has
the code that the labels of the program give it (`SecondPass.exists_encode_eq`). Nothing
from here on needs the statements before the second pass.

In a program that was read from source lines the kinds of operands do not mix. A number
belongs to a directive, a label to an operation or to a word that is unknown
(`Statement.isNumber_of_read`). That leaves four shapes a code can have, and
`Statement.CodedAs` lists them: a constant, an operation without an operand, and an
operation that refers to a label with or without an index register. Whatever is said
about the width or the value of a code is a case analysis over that list.

`Assembly.Made` collects what a successful assembly is made of.
-/

namespace TwoPass

/-! ## Operands as they are read -/

/-- Whether an operand is a number. -/
def Operand.isNumber : Operand → Bool
  | .literal _ => true
  | _ => false

/-- A field is read as a number exactly if the mnemonic takes one. -/
theorem Mnemonic.isNumber_operand (mnemonic : Mnemonic) (field : String) :
    (mnemonic.operand field).isNumber = mnemonic.takesNumber := by
  unfold Mnemonic.operand
  cases mnemonic.takesNumber with
  | true => rfl
  | false =>
    rw [if_neg Bool.false_ne_true]
    split <;> rfl

namespace Statement

/-- **Numbers belong to directives**: the operand of a statement that was read is a
number exactly if its mnemonic takes one. -/
theorem isNumber_of_read {line : Nat} {text : String} {s : Statement}
    (h : read line text = .ok s) {operand : Operand} (hop : s.operand = some operand) :
    operand.isNumber = s.mnemonic.takesNumber := by
  obtain ⟨mnemonic, field, -, hm, hmap, -⟩ := Plain.parts?_of_read h
  rw [hop, ← hm] at hmap
  obtain ⟨field, -, rfl⟩ := Option.map_eq_some_iff.mp hmap.symm
  exact s.mnemonic.isNumber_operand field

/-- An operation takes no number, so only a constant can start with nothing. -/
theorem machine_of_byte? {s : Statement} {byte : String} (h : s.mnemonic.byte? = some byte)
    (hnumber : s.mnemonic.takesNumber = false) :
    ∃ op, s.mnemonic = .machine op ∧ byte = op.code := by
  unfold Mnemonic.byte? at h
  split at h
  · next op hop => exact ⟨op, hop, (Option.some.inj h).symm⟩
  · next hword =>
    rw [hword] at hnumber
    cases hnumber
  · cases h

end Statement

/-! ## The ways of encoding, read backwards -/

namespace Statement

variable {s : Statement} {storage labels : SymbolTable}

/-- Behind a byte stands a reference, unless the statement is a constant with a
number. -/
theorem encode_of_byte? {byte : String} (hbyte : s.mnemonic.byte? = some byte)
    (hnumber : ∀ number, s.operand = some (.literal number) → s.mnemonic ≠ .directive .word) :
    s.encode storage labels = s.encodeReference storage labels byte := by
  unfold Mnemonic.byte? at hbyte
  unfold encode
  split at hbyte
  · next op hop =>
    cases hbyte
    rw [hop]
  · next hword =>
    cases hbyte
    rw [hword]
    simp only
    split
    · next number hop => exact absurd hword (hnumber number hop)
    · rfl
  · cases hbyte

/-- A label is referred to by itself or, outside a constant, in place of a number. -/
theorem target?_eq_some {label : String} (h : s.target? = some label) :
    s.operand = some (.direct label)
      ∨ s.operand = some (.literal label) ∧ s.mnemonic ≠ .directive .word := by
  unfold target? at h
  split at h
  · next hop => exact .inl (hop.trans (congrArg (some ∘ Operand.direct) (Option.some.inj h)))
  · next hop =>
    split at h
    · cases h
    · next hword =>
      cases h
      exact .inr ⟨hop, hword⟩
  · cases h

/-- **A way of encoding that ends well is the way the statement is encoded**, so no other
one is open to it. -/
theorem Coding.encode_eq {made : ObjectCode} (h : s.Coding storage labels (.ok made)) :
    s.encode storage labels = .ok made := by
  cases h with
  | silent huncoded =>
    unfold encode
    unfold Mnemonic.isCoded at huncoded
    split at huncoded
    · cases huncoded
    · next d hword hd =>
      rw [hd]
      cases d with
      | word => exact absurd rfl hword
      | reserveWords => rfl
      | reserveBytes => rfl
      | start => rfl
      | finish => rfl
    · cases huncoded
  | unknown hname =>
    unfold encode
    rw [hname]
  | constant hword hop hpadded =>
    unfold encode
    rw [hword]
    simp only [hop, encodeConstant, hpadded]
    split <;> rfl
  | bare hbyte hop =>
    rw [encode_of_byte? hbyte (by simp [hop]), encodeReference, hop]
  | undefined hbyte hrefers =>
    rcases hrefers with ⟨hrefers, hnone⟩ | ⟨index, hop, hnone⟩
    · rcases target?_eq_some hrefers with hop | ⟨hop, hword⟩
      · rw [encode_of_byte? hbyte (by simp [hop]), encodeReference, hop]
        simp only [hnone]
      · rw [encode_of_byte? hbyte fun _ _ => hword, encodeReference, hop]
        simp only [hnone]
    · rw [encode_of_byte? hbyte (by simp [hop]), encodeReference, hop]
      simp only [hnone]
  | direct hbyte hrefers hfound =>
    rcases target?_eq_some hrefers with hop | ⟨hop, hword⟩
    · rw [encode_of_byte? hbyte (by simp [hop]), encodeReference, hop]
      simp only [hfound]
    · rw [encode_of_byte? hbyte fun _ _ => hword, encodeReference, hop]
      simp only [hfound]
  | indexed hbyte hop hfound hmade =>
    rw [encode_of_byte? hbyte (by simp [hop]), encodeReference, hop]
    simp only [hfound, hmade]

/-- A constant of more digits than a word has is reported. -/
theorem tooWide_mem_findings {number : String} (hword : s.mnemonic = .directive .word)
    (hop : s.operand = some (.literal number)) (hnumeral : Hex.IsNumeral number)
    (hwide : codeDigits < number.length) :
    .operandTooWide number ∈ s.findings storage labels := by
  have hcoding : s.Coding storage labels _ :=
    .constant hword hop (Hex.padLeft_eq_ok_iff.mpr ⟨hnumeral, rfl⟩)
  rw [findings, hcoding.encode_eq, Hex.length_leftpad, if_pos (by simp [hwide])]
  exact List.mem_singleton.mpr rfl

end Statement

/-! ## Finished statements -/

theorem Operation.length_code (op : Operation) : op.code.length = 2 := by
  rw [Operation.code, String.length_ofList, Hex.length_fixed]

namespace SecondPass

variable {lines : List String} {placed : List Statement}

/-- **A finished program explains its codes**: every statement is encoded against the
labels of the program as it stands, and has the code that comes of it. -/
theorem exists_encode_eq (hfault : (run placed).fault = none) {t : Statement}
    (ht : t ∈ (run placed).statements) :
    ∃ made, t.encode (SymbolTable.storage (run placed).statements)
        (SymbolTable.all (run placed).statements) = .ok made ∧ t.code = made.code := by
  obtain ⟨k, hk⟩ := List.mem_iff_getElem?.mp ht
  obtain ⟨s, -, made, hmade, rfl⟩ := exists_of_forall₂ (forall₂_runWith hfault) hk
  refine ⟨made, ?_, rfl⟩
  rw [all_run, storage_run]
  exact hmade

/-- What the pass reports, statement by statement. -/
theorem diagnostics_runWith {storage labels : SymbolTable} {statements : List Statement}
    (h : (runWith storage labels statements).fault = none) :
    Event.diagnostics (runWith storage labels statements).events
      = statements.flatMap fun s =>
          (s.findings storage labels).map (Diagnostic.mk s.line) := by
  induction statements with
  | nil => rfl
  | cons s more ih =>
    rw [runWith] at h ⊢
    cases hmade : s.encode storage labels with
    | error cause =>
      rw [hmade] at h
      cases h
    | ok made =>
      rw [hmade] at h
      have hfindings : s.findings storage labels = made.findings := by
        rw [Statement.findings, hmade]
        rfl
      simp only [Event.diagnostics_append, Event.diagnostics_map_finding, ih h, List.flatMap_cons,
        hfindings]

/-- What a pass that comes to its end reports about the statements it was given. -/
theorem diagnostics_of_finished (hfault : (run placed).fault = none) :
    (run placed).diagnostics = placed.flatMap fun s =>
      (s.findings (SymbolTable.storage placed) (SymbolTable.all placed)).map
        (Diagnostic.mk s.line) := by
  show Event.diagnostics (_ ++ (runWith _ _ placed).events) = _
  rw [Event.diagnostics_append, Event.diagnostics_map_symbolKnown, List.nil_append,
    diagnostics_runWith hfault]

/-- **What the pass reports about a finished program**, statement by statement. -/
theorem diagnostics_run (hplaced : (FirstPass.run lines).result = .ok placed)
    (hfault : (run placed).fault = none) :
    (run placed).diagnostics = (run placed).statements.flatMap fun t =>
      (t.findings (SymbolTable.storage (run placed).statements)
        (SymbolTable.all (run placed).statements)).map (Diagnostic.mk t.line) := by
  rw [diagnostics_of_finished hfault, all_run, storage_run]
  -- taking the codes out again changes neither a finding nor its line
  generalize SymbolTable.all placed = labels, SymbolTable.storage placed = storage
  rw [← map_uncoded hplaced hfault, List.flatMap_map, map_uncoded hplaced hfault]
  rfl

end SecondPass

namespace Statement

/-- The address that a statement of a program refers to. A label with an index register
is one of data, any other label is any. -/
def referent? (statements : List Statement) (s : Statement) : Option String :=
  match s.operand with
  | some (.direct label) => (SymbolTable.all statements).address? label
  | some (.indexed label _) => (SymbolTable.storage statements).address? label
  | _ => none

/-- **The shapes of a code** in a program that was read from its source. -/
inductive CodedAs (statements : List Statement) (s : Statement) : String → Prop where
  /-- The number of a constant. -/
  | constant {number : String} (word : s.mnemonic = .directive .word)
      (operand : s.operand = some (.literal number)) (numeral : Hex.IsNumeral number) :
      CodedAs statements s (String.ofList (number.toList.leftpad codeDigits '0'))
  /-- A byte, or nothing, without an operand. -/
  | bare {byte : String} (begins : s.mnemonic.byte? = some byte) (operand : s.operand = none) :
      CodedAs statements s (Hex.padRight byte codeDigits)
  /-- The byte of an operation and the address of a label. -/
  | direct {op : Operation} {label : String} {v : Nat} (machine : s.mnemonic = .machine op)
      (operand : s.operand = some (.direct label))
      (found : s.referent? statements = some (Hex.render v)) (fits : v ≤ maxAddress) :
      CodedAs statements s (Hex.padRight (op.code ++ Hex.render v) codeDigits)
  /-- The byte of an operation and the field of an address with an index register. -/
  | indexed {op : Operation} {label index field : String} {v : Nat}
      (machine : s.mnemonic = .machine op) (operand : s.operand = some (.indexed label index))
      (found : s.referent? statements = some (Hex.render v)) (fits : v ≤ maxAddress)
      (made : indexedField (Hex.render v) = .ok field) :
      CodedAs statements s (op.code ++ field)

/-! The operand tells which of the shapes a code has. -/

namespace CodedAs

variable {statements : List Statement} {s : Statement} {code : String}

theorem of_none (h : s.CodedAs statements code) (hop : s.operand = none) :
    ∃ byte, s.mnemonic.byte? = some byte ∧ code = Hex.padRight byte codeDigits := by
  cases h with
  | bare hbegins _ => exact ⟨_, hbegins, rfl⟩
  | constant _ hown _ => simp [hop] at hown
  | direct _ hown _ _ => simp [hop] at hown
  | indexed _ hown _ _ _ => simp [hop] at hown

theorem of_literal {number : String} (h : s.CodedAs statements code)
    (hop : s.operand = some (.literal number)) :
    code = String.ofList (number.toList.leftpad codeDigits '0') := by
  cases h with
  | constant _ hown _ =>
    rw [hop] at hown
    cases hown
    rfl
  | bare _ hown => simp [hop] at hown
  | direct _ hown _ _ => simp [hop] at hown
  | indexed _ hown _ _ _ => simp [hop] at hown

theorem of_direct {label : String} (h : s.CodedAs statements code)
    (hop : s.operand = some (.direct label)) :
    ∃ op v, s.mnemonic = .machine op ∧ s.referent? statements = some (Hex.render v)
      ∧ code = Hex.padRight (op.code ++ Hex.render v) codeDigits := by
  cases h with
  | direct hmachine _ hfound _ => exact ⟨_, _, hmachine, hfound, rfl⟩
  | constant _ hown _ => simp [hop] at hown
  | bare _ hown => simp [hop] at hown
  | indexed _ hown _ _ _ => simp [hop] at hown

theorem of_indexed {label index : String} (h : s.CodedAs statements code)
    (hop : s.operand = some (.indexed label index)) :
    ∃ op v field, s.mnemonic = .machine op ∧ s.referent? statements = some (Hex.render v)
      ∧ v ≤ maxAddress ∧ indexedField (Hex.render v) = .ok field ∧ code = op.code ++ field := by
  cases h with
  | indexed hmachine _ hfound hfits hmade => exact ⟨_, _, _, hmachine, hfound, hfits, hmade, rfl⟩
  | constant _ hown _ => simp [hop] at hown
  | bare _ hown => simp [hop] at hown
  | direct _ hown _ _ => simp [hop] at hown

end CodedAs

end Statement

namespace SecondPass

variable {lines : List String} {placed : List Statement}

/-- Both tables of a finished program give addresses of the machine. -/
theorem tables_fit (hplaced : (FirstPass.run lines).result = .ok placed) :
    (SymbolTable.storage (run placed).statements).Fits
      ∧ (SymbolTable.all (run placed).statements).Fits := by
  rw [all_run, storage_run]
  exact ⟨FirstPass.storage_fits hplaced, FirstPass.all_fits hplaced⟩

/-- A statement of a finished program has an operand of the kind its mnemonic takes. -/
theorem isNumber_operand (hplaced : (FirstPass.run lines).result = .ok placed)
    (hfault : (run placed).fault = none) {t : Statement} (ht : t ∈ (run placed).statements)
    {operand : Operand} (hop : t.operand = some operand) :
    operand.isNumber = t.mnemonic.takesNumber := by
  obtain ⟨k, hk⟩ := List.mem_iff_getElem?.mp ht
  obtain ⟨s, hread, hs⟩ := placed_of_getElem? hplaced hfault hk
  have hsame : s.mnemonic = t.mnemonic ∧ s.operand = t.operand :=
    ⟨(congrArg Statement.mnemonic hs).symm, (congrArg Statement.operand hs).symm⟩
  rw [← hsame.1]
  exact Statement.isNumber_of_read hread (hsame.2.trans hop)

/-- **Every code of a finished program has one of the four shapes.** -/
theorem codedAs (hplaced : (FirstPass.run lines).result = .ok placed)
    (hfault : (run placed).fault = none) {t : Statement} (ht : t ∈ (run placed).statements)
    {code : String} (hcode : t.code = some code) :
    t.CodedAs (run placed).statements code := by
  obtain ⟨hstorage, hlabels⟩ := tables_fit hplaced
  obtain ⟨made, hmade, hown⟩ := exists_encode_eq hfault ht
  have hcoding := t.coding_encode (SymbolTable.storage (run placed).statements)
    (SymbolTable.all (run placed).statements)
  have hkind {operand : Operand} (hop : t.operand = some operand) :
      t.mnemonic.takesNumber = operand.isNumber :=
    (isNumber_operand hplaced hfault ht hop).symm
  rw [hmade] at hcoding
  rw [hown] at hcode
  cases hcoding with
  | silent _ => cases hcode
  | unknown _ => cases hcode
  | undefined _ _ => cases hcode
  | constant hword hop hpadded =>
    cases hcode
    obtain ⟨hnumeral, rfl⟩ := Hex.padLeft_eq_ok_iff.mp hpadded
    exact .constant hword hop hnumeral
  | bare hbyte hop =>
    cases hcode
    exact .bare hbyte hop
  | direct hbyte hrefers hfound =>
    cases hcode
    obtain ⟨v, hv, rfl⟩ := hlabels _ _ hfound
    rcases Statement.target?_eq_some hrefers with hop | ⟨hop, hword⟩
    · obtain ⟨op, hmachine, rfl⟩ := Statement.machine_of_byte? hbyte (hkind hop)
      exact .direct hmachine hop (by rw [Statement.referent?, hop]; exact hfound) hv
    · -- a number belongs to a directive, and only a constant has a byte among these
      have hnumber : t.mnemonic.takesNumber = true := (hkind hop)
      unfold Mnemonic.byte? at hbyte
      split at hbyte
      · next hop =>
        rw [hop] at hnumber
        cases hnumber
      · next h => exact absurd h hword
      · cases hbyte
  | indexed hbyte hop hfound hfield =>
    cases hcode
    obtain ⟨v, hv, rfl⟩ := hstorage _ _ hfound
    obtain ⟨op, hmachine, rfl⟩ := Statement.machine_of_byte? hbyte (hkind hop)
    exact .indexed hmachine hop (by rw [Statement.referent?, hop]; exact hfound) hv hfield

end SecondPass

/-! ## The parts of an assembly -/

/-- **What an assembly is made of**: the statements that both passes leave behind, the
listing and the object program made of them, and what the passes reported. -/
structure Assembly.Made (settings : Settings) (lines : List String) (placed : List Statement)
    (assembly : Assembly) : Prop where
  /-- The first pass accepts the program. -/
  accepted : (FirstPass.run (Text.program lines)).result = .ok placed
  /-- The second pass comes to its end. -/
  finished : (SecondPass.run placed).fault = none
  /-- The statements are those of the second pass. -/
  statements : assembly.statements = (SecondPass.run placed).statements
  /-- The listing shows them. -/
  listing : assembly.listing = Listing.render assembly.statements
  /-- The object program is built of them. -/
  object : ObjectProgram.build settings assembly.statements = .ok assembly.object
  /-- The diagnostics are those of the first pass and then of the second. -/
  diagnostics : assembly.diagnostics
    = (FirstPass.run (Text.program lines)).diagnostics ++ (SecondPass.run placed).diagnostics

/-- Every assembly is made so. -/
theorem exists_made {settings : Settings} {lines : List String} {assembly : Assembly}
    (h : assemble settings lines = .ok assembly) :
    ∃ placed, assembly.Made settings lines placed := by
  obtain ⟨placed, hplaced, hfault, hstatements, hobject⟩ := assemble_eq_ok h
  rw [assemble_of_passes hplaced hfault, ← hstatements, hobject] at h
  split at h
  · cases h
  · have hown := Except.ok.inj h
    refine ⟨placed, hplaced, hfault, hstatements, ?_, hobject, ?_⟩
    · exact (congrArg Assembly.listing hown).symm
    · rw [← congrArg Assembly.diagnostics hown]
      exact Event.diagnostics_append _ _

/-- **An assembly from a run of its stages**: if both passes and the builder go through,
there is an assembly, with whatever was seen of the passes and of the object program. -/
theorem exists_assembly_made (settings : Settings) (lines : List String) {α β : Type}
    (f : List Statement → α) (g : ObjectProgram → β) {a : α} {b : β}
    (hstrict : settings.strict = false)
    (h : (FirstPass.run (Text.program lines)).result.toOption.map (fun placed =>
        ((SecondPass.run placed).fault, f placed,
          (ObjectProgram.buildInOrder settings (SecondPass.run placed).statements).toOption.map g))
      = some (none, a, some b)) :
    ∃ assembly placed, assemble settings lines = .ok assembly
      ∧ assembly.Made settings lines placed ∧ f placed = a ∧ g assembly.object = b := by
  obtain ⟨placed, hplaced, hseen⟩ := Option.map_eq_some_iff.mp h
  obtain ⟨hfault, hseen⟩ := Prod.mk.inj hseen
  obtain ⟨hpasses, hobject⟩ := Prod.mk.inj hseen
  obtain ⟨object, hobject, hrecords⟩ := Option.map_eq_some_iff.mp hobject
  have hplaced := eq_ok_of_toOption hplaced
  obtain ⟨assembly, hok, -, rfl⟩ :=
    exists_assemble_eq_ok hstrict hplaced hfault (eq_ok_of_toOption hobject)
  obtain ⟨found, hmade⟩ := exists_made hok
  obtain rfl : placed = found := Except.ok.inj (hplaced.symm.trans hmade.accepted)
  exact ⟨assembly, placed, hok, hmade, hpasses, hrecords⟩

end TwoPass
