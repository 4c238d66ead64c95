import TwoPass.Proofs.Assembly

/-!
# Running the second pass again

The second pass writes codes into the statements it reads its labels from. That does no
harm, because it reads no code: neither the tables nor the encoding of a statement can tell
two statements apart that differ in their codes only. So a run falls into two parts. The
statements up to the first that cannot be encoded get new codes, whatever they had
(`Statement.recoded`), and the others stay as they were (`SecondPass.runWith_append`,
`SecondPass.runWith_of_error`).

Where a run ends and what it reports is thus the same for all programs that agree apart
from their codes (`SecondPass.Splits.of_map_uncoded`). What a run leaves behind is such a
program, and running the pass over it once more comes to the same
(`SecondPass.run_again`).
-/

namespace TwoPass

namespace Statement

/-- What the second pass says about a statement. -/
def findings (s : Statement) (storage labels : SymbolTable) : List Finding :=
  (s.encode storage labels).toOption.elim [] ObjectCode.findings

variable (storage labels : SymbolTable)

/-- **A statement with the code that is made of it**, whatever code it has. -/
def recoded (s : Statement) : Statement :=
  { s with code := (s.encode storage labels).toOption.bind ObjectCode.code }

/-- What the second pass records about a statement. -/
def reports (s : Statement) : List Event :=
  (s.findings storage labels).map fun f => .diagnosed ⟨s.line, f⟩

/-! None of these reads the code of the statement. -/

theorem encode_uncoded (s : Statement) :
    s.uncoded.encode storage labels = s.encode storage labels := rfl

theorem map_recoded_uncoded (statements : List Statement) :
    (statements.map uncoded).map (recoded storage labels)
      = statements.map (recoded storage labels) := by
  rw [List.map_map]
  rfl

theorem flatMap_reports_uncoded (statements : List Statement) :
    (statements.map uncoded).flatMap (reports storage labels)
      = statements.flatMap (reports storage labels) := by
  rw [List.flatMap_map]
  rfl

theorem map_uncoded_recoded (statements : List Statement) :
    (statements.map (recoded storage labels)).map uncoded = statements.map uncoded := by
  rw [List.map_map]
  rfl

end Statement

namespace SecondPass

variable {storage labels : SymbolTable} {done rest statements others : List Statement}

/-- **Statements that can be encoded get new codes**, and the pass goes on behind them. -/
theorem runWith_append (hdone : ∀ s ∈ done, ∃ made, s.encode storage labels = .ok made)
    (rest : List Statement) :
    runWith storage labels (done ++ rest)
      = { statements := done.map (Statement.recoded storage labels)
            ++ (runWith storage labels rest).statements
          events := done.flatMap (Statement.reports storage labels)
            ++ (runWith storage labels rest).events
          fault := (runWith storage labels rest).fault } := by
  induction done with
  | nil => rfl
  | cons s done ih =>
    obtain ⟨made, hmade⟩ := hdone s List.mem_cons_self
    have hrecoded : s.recoded storage labels = { s with code := made.code } := by
      rw [Statement.recoded, hmade]
      rfl
    have hreports : s.reports storage labels
        = made.findings.map fun f => .diagnosed ⟨s.line, f⟩ := by
      rw [Statement.reports, Statement.findings, hmade]
      rfl
    rw [List.cons_append, runWith, hmade, ih fun t ht => hdone t (List.mem_cons_of_mem s ht),
      List.map_cons, List.flatMap_cons, hrecoded, hreports, List.append_assoc]
    rfl

/-- **At a fault the pass stops**, and the statements from there on stay as they are. -/
theorem runWith_of_error {s : Statement} {fault : Fault}
    (h : s.encode storage labels = .error fault) (more : List Statement) :
    runWith storage labels (s :: more)
      = { statements := s :: more, events := [], fault := some fault } := by
  rw [runWith, h]

/-- **Where a pass ends**: it gets through the statements in `done`, and then there are no
more or `rest` begins with one that cannot be encoded. -/
structure Splits (storage labels : SymbolTable) (statements done rest : List Statement)
    (fault : Option Fault) : Prop where
  /-- The two parts make up the program. -/
  parts : statements = done ++ rest
  /-- The first part can be encoded. -/
  encoded : ∀ s ∈ done, ∃ made, s.encode storage labels = .ok made
  /-- The pass ends at the end, or at the first fault. -/
  ends : rest = [] ∧ fault = none
    ∨ ∃ s more cause, rest = s :: more ∧ s.encode storage labels = .error cause
        ∧ fault = some cause

/-- Every pass ends somewhere. -/
theorem exists_splits (storage labels : SymbolTable) (statements : List Statement) :
    ∃ done rest fault, Splits storage labels statements done rest fault := by
  induction statements with
  | nil => exact ⟨[], [], none, rfl, fun s hs => absurd hs List.not_mem_nil, .inl ⟨rfl, rfl⟩⟩
  | cons s more ih =>
    cases hmade : s.encode storage labels with
    | error cause =>
      exact ⟨[], s :: more, some cause, rfl, fun t ht => absurd ht List.not_mem_nil,
        .inr ⟨s, more, cause, rfl, hmade, rfl⟩⟩
    | ok made =>
      obtain ⟨done, rest, fault, rfl, hdone, hends⟩ := ih
      refine ⟨s :: done, rest, fault, rfl, ?_, hends⟩
      intro t ht
      rcases List.mem_cons.mp ht with rfl | ht
      · exact ⟨made, hmade⟩
      · exact hdone t ht

/-- **What a pass does**, given where it ends. -/
theorem Splits.runWith_eq {fault : Option Fault}
    (h : Splits storage labels statements done rest fault) :
    runWith storage labels statements
      = { statements := done.map (Statement.recoded storage labels) ++ rest
          events := done.flatMap (Statement.reports storage labels)
          fault } := by
  obtain ⟨rfl, hdone, ⟨rfl, rfl⟩ | ⟨s, more, cause, rfl, herror, rfl⟩⟩ := h
  · rw [runWith_append hdone, runWith]
    simp only [List.append_nil]
  · rw [runWith_append hdone, runWith_of_error herror, List.append_nil]

/-- **Programs that agree apart from their codes end at the same place.** -/
theorem Splits.of_map_uncoded {fault : Option Fault}
    (h : Splits storage labels statements done rest fault)
    (hsame : others.map Statement.uncoded = statements.map Statement.uncoded) :
    Splits storage labels others (others.take done.length) (others.drop done.length) fault
      ∧ (others.take done.length).map Statement.uncoded = done.map Statement.uncoded := by
  obtain ⟨rfl, hdone, hends⟩ := h
  have hfront : (others.take done.length).map Statement.uncoded = done.map Statement.uncoded := by
    rw [List.map_take, hsame, List.map_append, List.take_left' (List.length_map _)]
  have hback : (others.drop done.length).map Statement.uncoded = rest.map Statement.uncoded := by
    rw [List.map_drop, hsame, List.map_append, List.drop_left' (List.length_map _)]
  refine ⟨⟨(List.take_append_drop _ _).symm, ?_, ?_⟩, hfront⟩
  · intro t ht
    have hmem := List.mem_map_of_mem (f := Statement.uncoded) ht
    rw [hfront] at hmem
    obtain ⟨s, hs, hst⟩ := List.mem_map.mp hmem
    rw [← Statement.encode_uncoded, ← hst, Statement.encode_uncoded]
    exact hdone s hs
  · rcases hends with ⟨rfl, rfl⟩ | ⟨s, more, cause, rfl, herror, rfl⟩
    · exact .inl ⟨List.map_eq_nil_iff.mp hback, rfl⟩
    · obtain ⟨t, others', hdrop, hst, -⟩ := List.map_eq_cons_iff.mp hback
      refine .inr ⟨t, others', cause, hdrop, ?_, rfl⟩
      rw [← Statement.encode_uncoded, hst, Statement.encode_uncoded, herror]

end SecondPass

namespace SymbolTable

/-- Codes do not enter a table. -/
theorem all_map_uncoded (statements : List Statement) :
    all (statements.map Statement.uncoded) = all statements := by
  rw [all, all, List.filterMap_map]
  rfl

theorem storage_map_uncoded (statements : List Statement) :
    storage (statements.map Statement.uncoded) = storage statements := by
  rw [storage, storage, List.filter_map, all_map_uncoded]
  rfl

/-- Programs that agree apart from their codes have the same tables. -/
theorem eq_of_map_uncoded {statements others : List Statement}
    (h : others.map Statement.uncoded = statements.map Statement.uncoded) :
    storage others = storage statements ∧ all others = all statements := by
  rw [← storage_map_uncoded, h, storage_map_uncoded, ← all_map_uncoded, h, all_map_uncoded]
  exact ⟨rfl, rfl⟩

end SymbolTable

namespace SecondPass

variable {statements others done rest : List Statement} {fault : Option Fault}

/-- **What the pass does with a program, up to the codes it has.** -/
theorem Splits.run_eq
    (h : Splits (SymbolTable.storage statements) (SymbolTable.all statements) statements done rest
      fault)
    (hsame : others.map Statement.uncoded = statements.map Statement.uncoded) :
    run others
      = { statements :=
            done.map (Statement.recoded (SymbolTable.storage statements)
              (SymbolTable.all statements)) ++ others.drop done.length
          events := (SymbolTable.storage statements).symbols.map .symbolKnown
            ++ done.flatMap (Statement.reports (SymbolTable.storage statements)
              (SymbolTable.all statements))
          fault } := by
  obtain ⟨hsplits, hfront⟩ := h.of_map_uncoded hsame
  obtain ⟨hstorage, hall⟩ := SymbolTable.eq_of_map_uncoded hsame
  have hcodes (storage labels : SymbolTable) :
      (others.take done.length).map (Statement.recoded storage labels)
        = done.map (Statement.recoded storage labels) := by
    rw [← Statement.map_recoded_uncoded, hfront, Statement.map_recoded_uncoded]
  have hreports (storage labels : SymbolTable) :
      (others.take done.length).flatMap (Statement.reports storage labels)
        = done.flatMap (Statement.reports storage labels) := by
    rw [← Statement.flatMap_reports_uncoded, hfront, Statement.flatMap_reports_uncoded]
  simp only [run, hstorage, hall, hsplits.runWith_eq, hcodes, hreports]

/-- **The pass changes codes and nothing else**, also where it ends in a fault. -/
theorem map_uncoded_run (statements : List Statement) :
    (run statements).statements.map Statement.uncoded = statements.map Statement.uncoded := by
  obtain ⟨done, rest, fault, hsplits⟩ :=
    exists_splits (SymbolTable.storage statements) (SymbolTable.all statements) statements
  rw [hsplits.run_eq rfl, List.map_append, Statement.map_uncoded_recoded, ← List.map_append,
    hsplits.parts, List.drop_left]

/-- The pass changes none of the labels it goes by. -/
theorem all_run (statements : List Statement) :
    SymbolTable.all (run statements).statements = SymbolTable.all statements :=
  (SymbolTable.eq_of_map_uncoded (map_uncoded_run statements)).2

theorem storage_run (statements : List Statement) :
    SymbolTable.storage (run statements).statements = SymbolTable.storage statements :=
  (SymbolTable.eq_of_map_uncoded (map_uncoded_run statements)).1

/-- **The second pass can be run again, and it writes codes only.** A program falls into
the statements up to the first that cannot be encoded and the others. For whatever codes
the program may come with, the pass gives new codes to the first part, leaves the second as
it came, and records the same events and the same fault. Apart from the codes it changes
nothing, and a second run over what it left behind is the first run again. -/
theorem run_again (statements : List Statement) :
    ∃ done rest fault,
      Splits (SymbolTable.storage statements) (SymbolTable.all statements) statements done rest
          fault
        ∧ (∀ others : List Statement,
            others.map Statement.uncoded = statements.map Statement.uncoded →
            (run others).statements
                = done.map (Statement.recoded (SymbolTable.storage statements)
                    (SymbolTable.all statements)) ++ others.drop done.length
              ∧ (run others).events = (run statements).events
              ∧ (run others).fault = fault)
        ∧ (run statements).statements.map Statement.uncoded = statements.map Statement.uncoded
        ∧ run (run statements).statements = run statements := by
  obtain ⟨done, rest, fault, hsplits⟩ :=
    exists_splits (SymbolTable.storage statements) (SymbolTable.all statements) statements
  have hdrop : statements.drop done.length = rest := by
    rw [hsplits.parts, List.drop_left]
  have hown := hsplits.run_eq rfl
  refine ⟨done, rest, fault, hsplits, ?_, map_uncoded_run statements, ?_⟩
  · intro others hsame
    rw [hsplits.run_eq hsame, hown]
    exact ⟨rfl, rfl, rfl⟩
  · -- what was left behind has the part that was not reached at its end, as it was
    rw [hsplits.run_eq (map_uncoded_run statements), hown, List.drop_left' (List.length_map _), hdrop]

/-- A program with old codes all over, and a constant that is no number. -/
def staleStatements : List Statement :=
  [{ line := 1, label := some "A", mnemonic := .directive .word, operand := some (.literal "5")
     address := some "0", code := some "old" },
   { line := 2, label := none, mnemonic := .unknown "X", operand := none
     address := some "3", code := some "old" },
   { line := 3, label := none, mnemonic := .directive .word, operand := some (.literal "x")
     address := some "3", code := some "old" },
   { line := 4, label := none, mnemonic := .directive .word, operand := some (.literal "7")
     address := some "6", code := some "old" }]

/-- The codes before the fault are new, those behind it are old, and a second run finds
them all as it would leave them. -/
theorem run_again_stale :
    (run staleStatements).fault = some (.hex 3 "WORD x" (.malformed "x"))
      ∧ (run staleStatements).statements.map Statement.code
        = [some "000005", none, some "old", some "old"]
      ∧ (run staleStatements).diagnostics = [⟨2, .unknownMnemonic "X"⟩]
      ∧ run (run staleStatements).statements = run staleStatements
      ∧ (run (staleStatements.map Statement.uncoded)).events = (run staleStatements).events := by
  obtain ⟨done, rest, fault, -, hothers, -, hagain⟩ := run_again staleStatements
  refine ⟨by decide +kernel, by decide +kernel, by decide +kernel, hagain, ?_⟩
  exact (hothers (staleStatements.map Statement.uncoded) (by decide)).2.1

end SecondPass

end TwoPass
