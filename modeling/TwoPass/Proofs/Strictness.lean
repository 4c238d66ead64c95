import TwoPass.Proofs.LateFaults

/-!
# What strictness does

Strict settings let an assembly through or stop it, and they change nothing about
what comes through. The gate stands between the second pass and the builder, and it
counts errors among the diagnostics of both passes. The count is a fact about the
statements and not about the way the passes report: the first pass only warns
(`FirstPass.isError_diagnostics`), and the second reports an error for each
statement that it leaves without a code and that calls for one
(`SecondPass.errorCount_run`). So the gate is closed exactly if there is such a
statement, and behind it every operation and every constant has its code. What of
them lies in memory is then in the text records, piece by piece.
-/

namespace TwoPass

/-! ## The first pass only warns -/

namespace Layout

variable {l : Layout} {s : Statement} {d : Diagnostic}

theorem isError_define (h : d ∈ (l.define s).2) : d.isError = false := by
  obtain ⟨label, first, hfinding⟩ := finding_of_mem_define h
  rw [Diagnostic.isError, Diagnostic.severity, hfinding]
  rfl

theorem isError_findingsBefore (h : d ∈ l.findingsBefore s) : d.isError = false := by
  rcases List.mem_append.mp h with h | h
  · exact isError_define h
  · split at h
    · rw [Diagnostic.isError, Diagnostic.severity, Statement.finding_of_mem_originFindings h]
      rfl
    · cases h

theorem isError_size (h : d ∈ s.size.2) : d.isError = false := by
  obtain ⟨mnemonic, operand, hfinding⟩ := Statement.finding_of_mem_size h
  rw [Diagnostic.isError, Diagnostic.severity, hfinding]
  rfl

/-- Whatever becomes of a line, it is not told of an error. -/
theorem Placing.isError {line : Nat} {text : String} {p : Placement} (h : l.Placing line text p) :
    ∀ d ∈ Event.diagnostics p.events, d.isError = false := by
  intro d hd
  cases h with
  | unread _ => cases hd
  | second _ _ _ => exact isError_define (by simpa using hd)
  | misgiven _ _ _ _ _ => exact isError_define (by simpa using hd)
  | @unbased s _ _ _ =>
    have hd : d ∈ l.findingsBefore s ∨ d = ⟨line, .missingStart⟩ := by simpa using hd
    rcases hd with hd | rfl
    · exact isError_findingsBefore hd
    · rfl
  | @settled s _ _ _ _ =>
    have hd : d ∈ l.findingsBefore s ∨ d ∈ s.size.2 := by simpa using hd
    rcases hd with hd | hd
    · exact isError_findingsBefore hd
    · exact isError_size hd
  | beyond _ _ _ => exact isError_findingsBefore (by simpa using hd)

theorem isError_place (l : Layout) (line : Nat) (text : String) :
    ∀ d ∈ Event.diagnostics (l.place line text).events, d.isError = false := by
  unfold place
  split
  · exact fun d hd => nomatch hd
  · exact (placing_placeNext _ line text).isError

end Layout

namespace FirstPass

theorem isError_runFrom (l : Layout) (line : Nat) (lines : List String) :
    ∀ d ∈ Event.diagnostics (runFrom l line lines).events, d.isError = false := by
  induction lines generalizing l line with
  | nil => exact fun d hd => nomatch hd
  | cons text more ih =>
    have hplace := l.isError_place line text
    rw [runFrom]
    cases hp : (l.place line text).result with
    | error fault => simpa only [hp] using hplace
    | ok s =>
      intro d hd
      simp only [Event.diagnostics_append, List.mem_append] at hd
      rcases hd with hd | hd
      · exact hplace d hd
      · exact ih _ _ d hd

/-- **The first pass only warns.** -/
theorem isError_diagnostics (lines : List String) :
    ∀ d ∈ Event.diagnostics (run lines).events, d.isError = false := by
  have hfrom := isError_runFrom {} 1 lines
  unfold run
  simp only
  split
  · exact hfrom
  · intro d hd
    refine hfrom d ?_
    rw [Event.diagnostics_append] at hd
    simpa [Event.diagnostics, Event.diagnostic?] using hd

/-- No fault of the first pass is about the program as a whole. -/
theorem fault_ne_unresolved {lines : List String} {fault : Fault}
    (h : (run lines).result = .error fault) (n : Nat) : fault ≠ .unresolved n := by
  rintro rfl
  obtain ⟨k, -, -, hblames⟩ := run_blames h
  exact hblames

end FirstPass

/-! ## The gate -/

section Gate

variable {lines : List String} {placed : List Statement}

/-- What an assembly is if the first pass refuses the program. -/
theorem assemble_of_refused {fault : Fault}
    (h : (FirstPass.run (Text.program lines)).result = .error fault) (settings : Settings) :
    assemble settings lines = .error fault := by
  unfold assemble Run.ofLines
  simp only [h]

/-- What an assembly is if the second pass does not come to its end. -/
theorem assemble_of_fault {fault : Fault}
    (hplaced : (FirstPass.run (Text.program lines)).result = .ok placed)
    (hfault : (SecondPass.run placed).fault = some fault) (settings : Settings) :
    assemble settings lines = .error fault := by
  unfold assemble Run.ofLines
  simp only [hplaced, hfault]

/-- Both passes together report as many errors as there are statements without the
code they call for. -/
theorem errorCount_of_passes (lines : List String) (hfault : (SecondPass.run placed).fault = none) :
    Diagnostic.errorCount
        (Event.diagnostics ((FirstPass.run lines).events ++ (SecondPass.run placed).events))
      = (SecondPass.run placed).statements.countP Statement.lacksCode := by
  have hfirst : (Event.diagnostics (FirstPass.run lines).events).countP Diagnostic.isError = 0 := by
    rw [List.countP_eq_zero]
    intro d hd
    rw [FirstPass.isError_diagnostics lines d hd]
    decide
  rw [Event.diagnostics_append, Diagnostic.errorCount, List.countP_append, hfirst, Nat.zero_add]
  exact SecondPass.errorCount_run hfault

/-- **What an assembly is behind both passes**: strict settings refuse it if a
statement lacks its code, and otherwise the builder decides. -/
theorem assemble_of_passes (hplaced : (FirstPass.run (Text.program lines)).result = .ok placed)
    (hfault : (SecondPass.run placed).fault = none) (settings : Settings) :
    assemble settings lines
      = if settings.strict = true
            ∧ 0 < (SecondPass.run placed).statements.countP Statement.lacksCode
        then .error (.unresolved ((SecondPass.run placed).statements.countP Statement.lacksCode))
        else (ObjectProgram.build settings (SecondPass.run placed).statements).map fun object =>
          { statements := (SecondPass.run placed).statements
            listing := Listing.render (SecondPass.run placed).statements
            object
            diagnostics := Event.diagnostics ((FirstPass.run (Text.program lines)).events
              ++ (SecondPass.run placed).events) } := by
  unfold assemble Run.ofLines Run.conclude
  simp only [hplaced, hfault, errorCount_of_passes]
  split
  · rfl
  · cases ObjectProgram.build settings (SecondPass.run placed).statements with
    | error fault => rfl
    | ok object => rfl

/-- Either both passes come to their end, or their fault is the assembly's under all
settings. -/
theorem passes_or_fault (lines : List String) :
    (∃ placed, (FirstPass.run (Text.program lines)).result = .ok placed
        ∧ (SecondPass.run placed).fault = none)
      ∨ ∃ fault, (∀ settings, assemble settings lines = .error fault)
        ∧ (∀ n, fault ≠ .unresolved n)
        ∧ ∀ placed, (FirstPass.run (Text.program lines)).result = .ok placed →
          (SecondPass.run placed).fault ≠ none := by
  cases hplaced : (FirstPass.run (Text.program lines)).result with
  | error fault =>
    exact .inr ⟨fault, assemble_of_refused hplaced, FirstPass.fault_ne_unresolved hplaced,
      fun placed h => nomatch h⟩
  | ok placed =>
    cases hfault : (SecondPass.run placed).fault with
    | none => exact .inl ⟨placed, rfl, hfault⟩
    | some fault =>
      refine .inr ⟨fault, assemble_of_fault hplaced hfault, fun n => ?_, fun _ h => ?_⟩
      · obtain ⟨k, s, number, -, -, -, -, rfl⟩ := (SecondPass.fault_run_iff hplaced).mp hfault
        exact nofun
      · cases h
        rw [hfault]
        exact nofun

/-- No fault of the builder is about codes that are missing. -/
theorem build_ne_unresolved (hplaced : (FirstPass.run lines).result = .ok placed)
    (hfault : (SecondPass.run placed).fault = none) (settings : Settings) (n : Nat) :
    ObjectProgram.build settings (SecondPass.run placed).statements ≠ .error (.unresolved n) := by
  intro h
  rw [ObjectProgram.build_eq_buildInOrder hplaced hfault] at h
  rcases ObjectProgram.buildInOrder_eq_error (SecondPass.legible hplaced hfault) h with
    ⟨h, -⟩ | h | ⟨_, _, _, _, -, -, h⟩
  · cases h
  · cases h
  · cases h

/-- Without strictness an assembly is not refused for missing codes. -/
theorem lax_ne_unresolved {settings : Settings} (hlax : settings.strict = false) (n : Nat) :
    assemble settings lines ≠ .error (.unresolved n) := by
  rcases passes_or_fault lines with ⟨placed, hplaced, hfault⟩ | ⟨fault, herror, hother, -⟩
  · rw [assemble_of_passes hplaced hfault, hlax, if_neg (fun h => Bool.false_ne_true h.1)]
    exact fun h => build_ne_unresolved hplaced hfault settings n (eq_error_of_map h)
  · rw [herror]
    exact fun h => hother n (Except.error.inj h)

/-- A strict assembly is refused for missing codes exactly if there are some behind
both passes. -/
theorem strict_eq_unresolved_iff {settings : Settings} (hstrict : settings.strict = true)
    {n : Nat} :
    assemble settings lines = .error (.unresolved n)
      ↔ 0 < n ∧ ∃ placed, (FirstPass.run (Text.program lines)).result = .ok placed
        ∧ (SecondPass.run placed).fault = none
        ∧ n = (SecondPass.run placed).statements.countP Statement.lacksCode := by
  constructor
  · intro h
    rcases passes_or_fault lines with ⟨placed, hplaced, hfault⟩ | ⟨fault, herror, hother, -⟩
    · rw [assemble_of_passes hplaced hfault] at h
      split at h
      · next hgate =>
        cases h
        exact ⟨hgate.2, placed, hplaced, hfault, rfl⟩
      · exact absurd (eq_error_of_map h) (build_ne_unresolved hplaced hfault settings n)
    · rw [herror] at h
      exact absurd (Except.error.inj h) (hother n)
  · rintro ⟨hpos, placed, hplaced, hfault, rfl⟩
    rw [assemble_of_passes hplaced hfault, if_pos ⟨hstrict, hpos⟩]

/-- Whatever is not refused for missing codes does not depend on strictness. -/
theorem strict_eq_lax {settings : Settings}
    (h : ∀ n, assemble { settings with strict := true } lines ≠ .error (.unresolved n)) :
    assemble { settings with strict := true } lines
      = assemble { settings with strict := false } lines := by
  rcases passes_or_fault lines with ⟨placed, hplaced, hfault⟩ | ⟨fault, herror, -, -⟩
  · have hstrict := assemble_of_passes hplaced hfault { settings with strict := true }
    have hlax := assemble_of_passes hplaced hfault { settings with strict := false }
    rw [if_neg (fun hgate => Bool.false_ne_true hgate.1)] at hlax
    split at hstrict
    · exact absurd hstrict (h _)
    · -- the builder does not look at strictness
      rw [hstrict, hlax]
      rfl
  · rw [herror, herror]

/-- If a statement does not lack its code, it contributes exactly if it calls for one
and has an address. -/
theorem Statement.isSome_cell? {s : Statement} (hlegible : s.Legible)
    (hkind : ∀ code, s.code = some code →
      (∃ op, s.mnemonic = .machine op) ∨ s.mnemonic = .directive .word)
    (hlacks : s.lacksCode = false) :
    s.cell?.isSome = (s.mnemonic.isCoded && s.address.isSome) := by
  unfold cell?
  cases hcode : s.code with
  | none =>
    have huncoded : s.mnemonic.isCoded = false := by simpa [lacksCode, hcode] using hlacks
    rw [huncoded]
    split
    · rfl
    · cases s.address <;> rfl
  | some code =>
    have hne : code ≠ "" := (hlegible.code code hcode).1
    have hmnemonic : s.mnemonic.isCoded = true ∧ s.mnemonic.isControl = false := by
      rcases hkind code hcode with ⟨op, hop⟩ | hword
      · rw [hop]
        exact ⟨rfl, rfl⟩
      · rw [hword]
        exact ⟨rfl, rfl⟩
    rw [hmnemonic.1, hmnemonic.2]
    cases haddress : s.address <;> simp [hne]

/-- **Where no code is missing, no mnemonic is unknown, and all that calls for a code
and has an address contributes.** -/
theorem contributors_of_coded (hplaced : (FirstPass.run lines).result = .ok placed)
    (hfault : (SecondPass.run placed).fault = none)
    (hnone : ∀ s ∈ (SecondPass.run placed).statements, s.lacksCode = false) :
    (∀ s ∈ (SecondPass.run placed).statements, ∀ name, s.mnemonic ≠ .unknown name)
      ∧ ObjectProgram.contributors (SecondPass.run placed).statements
        = (SecondPass.run placed).statements.filter
            fun s => s.mnemonic.isCoded && s.address.isSome := by
  refine ⟨fun s hs name hname => ?_, List.filter_congr fun s hs => ?_⟩
  · have hcoded : s.code.isNone = false := by
      simpa [Statement.lacksCode, hname, Mnemonic.isCoded] using hnone s hs
    obtain ⟨code, hcode⟩ := Option.isSome_iff_exists.mp (Option.isNone_eq_false_iff.mp hcoded)
    rcases SecondPass.mnemonic_of_code hfault hs hcode with ⟨op, hop⟩ | hword
    · cases hname.symm.trans hop
    · cases hname.symm.trans hword
  · exact Statement.isSome_cell? (SecondPass.legible hplaced hfault s hs)
      (fun code => SecondPass.mnemonic_of_code hfault hs) (hnone s hs)

/-- **What strict settings let through**: no mnemonic is unknown, and everything that
calls for a code and has an address has its code in the text records. -/
theorem codes_of_strict {settings : Settings} {assembly : Assembly}
    (h : assemble settings lines = .ok assembly) (hstrict : settings.strict = true) :
    (∀ s ∈ assembly.statements, ∀ name, s.mnemonic ≠ .unknown name)
      ∧ List.Forall₂ (fun s code => ∃ own, s.code = some own ∧ s.padded own = .ok code)
        (assembly.statements.filter fun s => s.mnemonic.isCoded && s.address.isSome)
        (assembly.object.text.flatMap TextRecord.codes) := by
  obtain ⟨placed, hplaced, hfault, hstatements, hobject⟩ := assemble_eq_ok h
  rw [assemble_of_passes hplaced hfault] at h
  rw [hstatements, ObjectProgram.build_eq_buildInOrder hplaced hfault] at hobject
  rw [hstatements]
  have hnone : ∀ s ∈ (SecondPass.run placed).statements, s.lacksCode = false := by
    intro s hs
    cases hlacks : s.lacksCode with
    | false => rfl
    | true =>
      rw [if_pos ⟨hstrict, List.countP_pos_iff.mpr ⟨s, hs, hlacks⟩⟩] at h
      cases h
  obtain ⟨hknown, hcontributors⟩ := contributors_of_coded hplaced hfault hnone
  refine ⟨hknown, ?_⟩
  rw [← hcontributors]
  exact ObjectProgram.forall₂_contributors (ObjectProgram.buildInOrder_eq_ok hobject).2.1

end Gate

/-- **Strictness is a gate.** A strict assembly is refused for missing codes exactly if
both passes come to their end and leave some statement without a code that is no
`START`, no `END` and no reservation; the refusal gives their number. In every other
case it is the assembly without strictness, with the same result or the same fault, and
that one is never refused for missing codes. What a strict assembly lets through has no
unknown mnemonic, and the codes in its text records are those of the operations and
constants that have an address, one for each and in order. -/
theorem strict_assemble_iff (settings : Settings) (lines : List String) :
    (∀ n, assemble { settings with strict := true } lines = .error (.unresolved n)
        ↔ 0 < n ∧ ∃ placed, (FirstPass.run (Text.program lines)).result = .ok placed
          ∧ (SecondPass.run placed).fault = none
          ∧ n = (SecondPass.run placed).statements.countP Statement.lacksCode)
      ∧ ((∀ n, assemble { settings with strict := true } lines ≠ .error (.unresolved n)) →
        assemble { settings with strict := true } lines
          = assemble { settings with strict := false } lines)
      ∧ (∀ n, assemble { settings with strict := false } lines ≠ .error (.unresolved n))
      ∧ ∀ assembly, assemble { settings with strict := true } lines = .ok assembly →
        (∀ s ∈ assembly.statements, ∀ name, s.mnemonic ≠ .unknown name)
          ∧ List.Forall₂ (fun s code => ∃ own, s.code = some own ∧ s.padded own = .ok code)
            (assembly.statements.filter fun s => s.mnemonic.isCoded && s.address.isSome)
            (assembly.object.text.flatMap TextRecord.codes) := by
  exact ⟨fun n => strict_eq_unresolved_iff rfl, strict_eq_lax, lax_ne_unresolved rfl,
    fun assembly h => codes_of_strict h rfl⟩

end TwoPass
