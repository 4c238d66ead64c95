import TwoPass.Proofs.Definitions
import TwoPass.Proofs.Warnings

/-!
# Labels that are defined again

Nothing keeps a label from being defined on several lines. The first pass notes the labels
it meets, each with its line, and reports a line whose label it has noted before. The
second pass makes a table of the labels when all lines are read. Neither looks at what the
other does, but they agree: a line is reported exactly if the table has its label from an
earlier line, and that is the line the report names (`FirstPass.duplicateReports_run`). The
table and the reports together account for every line with a label
(`FirstPass.duplicate_reports_match_table`).

The report says that references resolve to the first definition. That holds of all
references without an index register. A reference with one goes to the first definition
among data, and if the first line of the label is not one of data, that is a later line,
which is then reported itself (`repeated_label_references`).
-/

namespace TwoPass

/-! ## The first of several statements -/

namespace Statement

/-- The first statement of a program with some property. -/
structure IsFirst (statements : List Statement) (p : Statement → Prop) (s : Statement) :
    Prop where
  /-- It is a statement of the program. -/
  mem : s ∈ statements
  /-- It has the property. -/
  holds : p s
  /-- No statement that has it is on an earlier line. -/
  le_line : ∀ t ∈ statements, p t → s.line ≤ t.line

variable {statements : List Statement}

/-- Where lines go up, a search from the front finds the first statement. -/
theorem isFirst_of_find? (hsorted : statements.Pairwise fun s t => s.line < t.line)
    {p : Statement → Bool} {s : Statement} (h : statements.find? p = some s) :
    s.IsFirst statements (p · = true) := by
  obtain ⟨hp, before, behind, rfl, hbefore⟩ := List.find?_eq_some_iff_append.mp h
  refine ⟨List.mem_append_right before List.mem_cons_self, hp, fun t ht hpt => ?_⟩
  obtain ⟨-, hbehind, -⟩ := List.pairwise_append.mp hsorted
  rcases List.mem_append.mp ht with ht | ht
  · have hnot := hbefore t ht
    rw [hpt] at hnot
    cases hnot
  · rcases List.mem_cons.mp ht with rfl | ht
    · exact Nat.le_refl _
    · exact Nat.le_of_lt ((List.pairwise_cons.mp hbehind).1 t ht)

/-- A symbol that is searched for from the front is that of the first statement. -/
theorem isFirst_of_symbol? (hsorted : statements.Pairwise fun s t => s.line < t.line)
    {p : Statement → Bool} {symbol : Symbol}
    (h : (statements.find? p).bind symbol? = some symbol) :
    ∃ s : Statement, s.IsFirst statements (p · = true) ∧ s.address = symbol.address
      ∧ s.line = symbol.line := by
  obtain ⟨s, hfirst, hsymbol⟩ := Option.bind_eq_some_iff.mp h
  exact ⟨s, isFirst_of_find? hsorted hfirst, (symbol?_eq_some_iff.mp hsymbol).2⟩

/-- The table has a label from the first statement that defines it. -/
theorem isFirst_of_get?_all (hsorted : statements.Pairwise fun s t => s.line < t.line)
    {name : String} {symbol : Symbol} (h : (SymbolTable.all statements).get? name = some symbol) :
    ∃ s : Statement, s.IsFirst statements (·.label = some name) ∧ s.address = symbol.address
      ∧ s.line = symbol.line := by
  rw [SymbolTable.get?_all] at h
  simpa only [decide_eq_true_eq] using isFirst_of_symbol? hsorted h

/-- Where lines go up, a statement is known by its line. -/
theorem eq_of_line_eq (hsorted : statements.Pairwise fun s t => s.line < t.line)
    {s t : Statement} (hs : s ∈ statements) (ht : t ∈ statements) (h : s.line = t.line) :
    s = t := by
  have hlines : (statements.map line).Nodup :=
    List.pairwise_map.mpr (hsorted.imp fun hlt => Nat.ne_of_lt hlt)
  exact List.inj_on_of_nodup_map hlines hs ht h

/-- The first statement with a property is not behind one that has more than that. -/
theorem IsFirst.line_le {p q : Statement → Prop} {s t : Statement} (hs : s.IsFirst statements p)
    (ht : t.IsFirst statements q) (hpq : ∀ u, q u → p u) : s.line ≤ t.line :=
  hs.le_line t ht.mem (hpq t ht.holds)

/-- The first statement that has more is the first one with a property exactly if that one
has more. -/
theorem IsFirst.eq_iff (hsorted : statements.Pairwise fun s t => s.line < t.line)
    {p q : Statement → Prop} {s t : Statement} (hs : s.IsFirst statements p)
    (ht : t.IsFirst statements q) (hpq : ∀ u, q u → p u) : t = s ↔ q s := by
  constructor
  · rintro rfl
    exact ht.holds
  · intro hq
    exact eq_of_line_eq hsorted ht.mem hs.mem
      (Nat.le_antisymm (ht.le_line s hs.mem hq) (hs.line_le ht hpq))

/-- Otherwise it is on a later line. -/
theorem IsFirst.line_lt (hsorted : statements.Pairwise fun s t => s.line < t.line)
    {p q : Statement → Prop} {s t : Statement} (hs : s.IsFirst statements p)
    (ht : t.IsFirst statements q) (hpq : ∀ u, q u → p u) (hne : t ≠ s) : s.line < t.line :=
  Nat.lt_of_le_of_ne (hs.line_le ht hpq) fun hsame =>
    hne (eq_of_line_eq hsorted ht.mem hs.mem hsame.symm)

/-- A label that a statement defines is in the table. -/
theorem exists_get?_all {s : Statement} (hs : s ∈ statements) {name : String}
    (hlabel : s.label = some name) :
    ∃ symbol, (SymbolTable.all statements).get? name = some symbol := by
  have hsome : (statements.find? (·.label = some name)).isSome :=
    List.find?_isSome.mpr ⟨s, hs, by simpa using hlabel⟩
  obtain ⟨first, hfirst⟩ := Option.isSome_iff_exists.mp hsome
  rw [SymbolTable.get?_all, hfirst, Option.bind_some, symbol?, label_of_find? hfirst]
  exact ⟨_, rfl⟩

end Statement

/-! ## Reports of labels -/

/-- Whether a finding is a label that was defined before. -/
def Finding.isDuplicateLabel : Finding → Bool
  | .duplicateLabel _ _ => true
  | _ => false

/-- The reports of labels that were defined before. -/
def FirstPass.duplicateReports (pass : FirstPass) : List Diagnostic :=
  pass.diagnostics.filter (·.finding.isDuplicateLabel)

namespace Statement

/-- Whether a statement of a program has a label that is also on an earlier line. -/
def repeats (statements : List Statement) (s : Statement) : Bool :=
  s.label.isSome && statements.any fun t => t.line < s.line ∧ t.label = s.label

/-- **The report of a statement that a table calls for**: the table has its label from an
earlier line. -/
def labelReport? (t : SymbolTable) (s : Statement) : Option Diagnostic :=
  s.label.bind fun name => (t.get? name).bind fun symbol =>
    if symbol.line < s.line then some ⟨s.line, .duplicateLabel name symbol.line⟩ else none

theorem labelReport?_eq_some_iff {t : SymbolTable} {s : Statement} {d : Diagnostic} :
    s.labelReport? t = some d ↔ ∃ name symbol, s.label = some name ∧ t.get? name = some symbol
      ∧ symbol.line < s.line ∧ d = ⟨s.line, .duplicateLabel name symbol.line⟩ := by
  simp only [labelReport?, Option.bind_eq_some_iff, Option.ite_none_right_eq_some,
    Option.some_inj, eq_comm (b := d), exists_and_left]

variable {statements before more : List Statement} {s : Statement}

/-- What is said about a label is what the table of the whole program calls for. -/
theorem labelFindings_eq_labelReport?
    (hsorted : (before ++ s :: more).Pairwise fun t u => t.line < u.line) :
    s.labelFindings before = (s.labelReport? (SymbolTable.all (before ++ s :: more))).toList := by
  unfold labelFindings labelReport?
  cases hlabel : s.label with
  | none => rfl
  | some name =>
    simp only [Option.bind_some, SymbolTable.get?_all, List.find?_append]
    cases hfirst : before.find? (·.label = some name) with
    | none =>
      -- then the table has the label from this statement, and that is no earlier line
      simp [symbol?, hlabel]
    | some first =>
      have hearlier : first.line < s.line :=
        (List.pairwise_append.mp hsorted).2.2 first (List.mem_of_find?_eq_some hfirst) s
          List.mem_cons_self
      simp [symbol?, label_of_find? hfirst, hearlier]

/-- Of all that is said about a statement, only what is said about its label is about a
label. -/
theorem filter_warnings (before : List Statement) (s : Statement) :
    (s.warnings before).filter (·.finding.isDuplicateLabel) = s.labelFindings before := by
  have hlabel : (s.labelFindings before).filter (·.finding.isDuplicateLabel)
      = s.labelFindings before := by
    refine List.filter_eq_self.mpr fun d hd => ?_
    obtain ⟨name, first, hfinding⟩ := finding_of_mem_labelFindings hd
    rw [hfinding]
    rfl
  have horigin : (if s.isStart then s.originFindings else []).filter
      (·.finding.isDuplicateLabel) = [] := by
    split
    · refine List.filter_eq_nil_iff.mpr fun d hd => ?_
      rw [finding_of_mem_originFindings hd]
      exact Bool.false_ne_true
    · rfl
  have hsize : (if s.address.isSome then s.size.2 else [⟨s.line, .missingStart⟩]).filter
      (·.finding.isDuplicateLabel) = [] := by
    split
    · refine List.filter_eq_nil_iff.mpr fun d hd => ?_
      obtain ⟨mnemonic, operand, hfinding⟩ := finding_of_mem_size hd
      rw [hfinding]
      exact Bool.false_ne_true
    · rfl
  rw [warnings, List.filter_append, List.filter_append, hlabel, horigin, hsize, List.append_nil,
    List.append_nil]

/-- **The reports of labels are those that the table calls for.** -/
theorem filter_warningsFrom (before : List Statement)
    (hsorted : (before ++ statements).Pairwise fun t u => t.line < u.line) :
    (warningsFrom before statements).filter (·.finding.isDuplicateLabel)
      = statements.flatMap fun s =>
          (s.labelReport? (SymbolTable.all (before ++ statements))).toList := by
  induction statements generalizing before with
  | nil => rfl
  | cons s more ih =>
    have hsplit : before ++ s :: more = before ++ [s] ++ more := List.append_cons before s more
    have hmore := ih (before ++ [s]) (hsplit ▸ hsorted)
    rw [← hsplit] at hmore
    rw [warningsFrom, List.filter_append, filter_warnings, hmore, List.flatMap_cons,
      labelFindings_eq_labelReport? hsorted]

/-- A statement with a label adds it to the table or is reported. -/
theorem size_all_concat (before : List Statement) (s : Statement) :
    (SymbolTable.all (before ++ [s])).size + (s.labelFindings before).length
      = (SymbolTable.all before).size + if s.label.isSome then 1 else 0 := by
  rw [SymbolTable.all_concat]
  unfold symbol? labelFindings
  cases s.label with
  | none => rfl
  | some name =>
    simp only [Option.map_some, Option.elim_some, (SymbolTable.coupled_all before).size_insert,
      SymbolTable.get?_all, Option.bind_some]
    cases hfirst : before.find? (·.label = some name) with
    | none => rfl
    | some first => simp [symbol?, label_of_find? hfirst]

/-- **Every label goes into the table or is reported.** -/
theorem size_all_append (before statements : List Statement) :
    (SymbolTable.all before).size + statements.countP (·.label.isSome)
      = (SymbolTable.all (before ++ statements)).size
        + ((warningsFrom before statements).filter (·.finding.isDuplicateLabel)).length := by
  induction statements generalizing before with
  | nil => rw [List.append_nil]; rfl
  | cons s more ih =>
    have hmore := ih (before ++ [s])
    have hown := size_all_concat before s
    rw [← List.append_cons before s more] at hmore
    rw [warningsFrom, List.filter_append, filter_warnings, List.length_append, List.countP_cons]
    omega

/-- The table calls for a report exactly if the label is on an earlier line. -/
theorem isSome_labelReport? (hsorted : statements.Pairwise fun s t => s.line < t.line)
    (s : Statement) :
    (s.labelReport? (SymbolTable.all statements)).isSome = s.repeats statements := by
  rw [Bool.eq_iff_iff, Option.isSome_iff_exists]
  simp only [labelReport?_eq_some_iff, repeats, Bool.and_eq_true, Option.isSome_iff_exists,
    List.any_eq_true, decide_eq_true_eq]
  constructor
  · rintro ⟨d, name, symbol, hlabel, hsymbol, hlt, -⟩
    obtain ⟨first, hfirst, -, hline⟩ := isFirst_of_get?_all hsorted hsymbol
    exact ⟨⟨name, hlabel⟩, first, hfirst.mem, hline ▸ hlt, hfirst.holds.trans hlabel.symm⟩
  · rintro ⟨⟨name, hlabel⟩, t, ht, hlt, hsame⟩
    obtain ⟨symbol, hsymbol⟩ := exists_get?_all ht (hsame.trans hlabel)
    obtain ⟨first, hfirst, -, hline⟩ := isFirst_of_get?_all hsorted hsymbol
    have hle := hfirst.le_line t ht (hsame.trans hlabel)
    exact ⟨_, name, symbol, hlabel, hsymbol, by omega, rfl⟩

end Statement

namespace FirstPass

variable {lines : List String} {statements : List Statement}

/-- **A line is reported exactly if the table has its label from an earlier line.** -/
theorem duplicateReports_run (h : (run lines).result = .ok statements) :
    (run lines).duplicateReports
      = statements.filterMap (Statement.labelReport? (SymbolTable.all statements)) := by
  rw [duplicateReports, diagnostics_run h, List.filterMap_eq_flatMap_toList]
  exact Statement.filter_warningsFrom [] (pairwise_line h)

/-- **The reports of labels agree with the table.** In a program that the first pass
accepts, one report is made of every line whose label is also on an earlier line and of no
other line, in the order of the lines. It names the line that the table has the label from,
and that is an earlier one. The lines with a label are as many as the symbols of the table
and the reports together. -/
theorem duplicate_reports_match_table (h : (run lines).result = .ok statements) :
    (run lines).duplicateReports.map Diagnostic.line
        = (statements.filter (·.repeats statements)).map Statement.line
      ∧ ((run lines).duplicateReports.map Diagnostic.line).Pairwise (· < ·)
      ∧ (∀ d ∈ (run lines).duplicateReports, ∃ s ∈ statements, ∃ label symbol,
          s.line = d.line ∧ s.label = some label
          ∧ (SymbolTable.all statements).get? label = some symbol
          ∧ d.finding = .duplicateLabel label symbol.line ∧ symbol.line < d.line)
      ∧ statements.countP (·.label.isSome)
        = (SymbolTable.all statements).size + (run lines).duplicateReports.length := by
  have hsorted := pairwise_line h
  have hlines : (run lines).duplicateReports.map Diagnostic.line
      = (statements.filter (·.repeats statements)).map Statement.line := by
    rw [duplicateReports_run h, ← List.filterMap_eq_filter, List.map_filterMap, List.map_filterMap]
    refine List.filterMap_congr fun s hs => ?_
    rw [Option.guard, ← Statement.isSome_labelReport? hsorted s]
    cases hreport : s.labelReport? (SymbolTable.all statements) with
    | none => rfl
    | some d =>
      obtain ⟨name, symbol, -, -, -, rfl⟩ := Statement.labelReport?_eq_some_iff.mp hreport
      rfl
  refine ⟨hlines, ?_, fun d hd => ?_, ?_⟩
  · rw [hlines, List.pairwise_map]
    exact hsorted.sublist List.filter_sublist
  · rw [duplicateReports_run h] at hd
    obtain ⟨s, hs, hreport⟩ := List.mem_filterMap.mp hd
    obtain ⟨name, symbol, hlabel, hsymbol, hlt, rfl⟩ :=
      Statement.labelReport?_eq_some_iff.mp hreport
    exact ⟨s, hs, name, symbol, rfl, hlabel, hsymbol, rfl, hlt⟩
  · have hcount := Statement.size_all_append [] statements
    rw [← diagnostics_run h, List.nil_append] at hcount
    exact (Nat.zero_add _).symm.trans hcount

/-- A program with a label on three lines and another on two. -/
def repeatingLines : List String :=
  ["P START 0", "X WORD 1", "Y LDA X", "X RESW 2", "LDA Y", "P WORD 3", "X LDA P"]

/-- Three lines are reported, and three labels are in the table. -/
theorem duplicate_reports_match_table_thrice :
    ∃ statements, (run repeatingLines).result = .ok statements
      ∧ (run repeatingLines).duplicateReports
        = [⟨4, .duplicateLabel "X" 2⟩, ⟨6, .duplicateLabel "P" 1⟩, ⟨7, .duplicateLabel "X" 2⟩]
      ∧ (statements.filter (·.repeats statements)).map Statement.line = [4, 6, 7]
      ∧ ((SymbolTable.all statements).get? "X").map Symbol.line = some 2
      ∧ (SymbolTable.all statements).size = 3
      ∧ statements.countP (·.label.isSome) = 3 + 3 := by
  have hseen : (run repeatingLines).result.toOption.map (fun statements =>
      (((SymbolTable.all statements).get? "X").map Symbol.line, (SymbolTable.all statements).size))
      = some (some 2, 3) := by
    decide +kernel
  have hreports : (run repeatingLines).duplicateReports
      = [⟨4, .duplicateLabel "X" 2⟩, ⟨6, .duplicateLabel "P" 1⟩, ⟨7, .duplicateLabel "X" 2⟩] := by
    decide +kernel
  obtain ⟨statements, hok, hseen⟩ := Option.map_eq_some_iff.mp hseen
  obtain ⟨hfirst, hsize⟩ := Prod.mk.inj hseen
  obtain ⟨hlines, -, -, hcount⟩ := duplicate_reports_match_table (eq_ok_of_toOption hok)
  rw [hreports] at hlines hcount
  rw [hsize] at hcount
  exact ⟨statements, eq_ok_of_toOption hok, hreports, hlines.symm, hfirst, hsize, hcount⟩

end FirstPass

/-! ## References to labels that are defined again -/

namespace Statement

/-- **The code of an operation that refers to an address**, given the address. -/
inductive CodedAt (s : Statement) (address : String) : String → Prop where
  /-- The address stands behind the byte of the operation. -/
  | direct {op : Operation} {label : String} (machine : s.mnemonic = .machine op)
      (operand : s.operand = some (.direct label)) :
      CodedAt s address (Hex.padRight (op.code ++ address) codeDigits)
  /-- The address stands there as a field with the index flag. -/
  | indexed {op : Operation} {label index field : String} (machine : s.mnemonic = .machine op)
      (operand : s.operand = some (.indexed label index))
      (made : indexedField address = .ok field) :
      CodedAt s address (op.code ++ field)

/-- The second pass reports no label as defined before. -/
theorem Coding.isDuplicateLabel {s : Statement} {storage labels : SymbolTable} {made : ObjectCode}
    (h : s.Coding storage labels (.ok made)) :
    ∀ finding ∈ made.findings, finding.isDuplicateLabel = false := by
  cases h with
  | silent _ => simp
  | unknown _ => simp [Finding.isDuplicateLabel]
  | constant _ _ _ =>
    split
    · simp [Finding.isDuplicateLabel]
    · simp
  | bare _ _ => simp
  | undefined _ _ => simp [Finding.isDuplicateLabel]
  | direct _ _ _ => simp
  | indexed _ _ _ _ => simp

end Statement

namespace SecondPass

variable {lines : List String} {placed : List Statement}

theorem isDuplicateLabel_of_mem (hfault : (run placed).fault = none) {d : Diagnostic}
    (hd : d ∈ (run placed).diagnostics) : d.finding.isDuplicateLabel = false := by
  rw [diagnostics_of_finished hfault] at hd
  obtain ⟨s, hs, hd⟩ := List.mem_flatMap.mp hd
  obtain ⟨finding, hfinding, rfl⟩ := List.mem_map.mp hd
  obtain ⟨made, hmade⟩ := fault_run_eq_none_iff_encoded.mp hfault s hs
  have hcoding := s.coding_encode (SymbolTable.storage placed) (SymbolTable.all placed)
  rw [hmade] at hcoding
  rw [Statement.findings, hmade] at hfinding
  exact hcoding.isDuplicateLabel finding hfinding

/-- **A report names the line that the table has the label from**, whichever pass it is
looked for in. -/
theorem exists_get?_all_of_report (hplaced : (FirstPass.run lines).result = .ok placed)
    (hfault : (run placed).fault = none) {d : Diagnostic} {label : String} {first : Nat}
    (hd : d ∈ (FirstPass.run lines).diagnostics ++ (run placed).diagnostics)
    (hfinding : d.finding = .duplicateLabel label first) :
    ∃ symbol, (SymbolTable.all placed).get? label = some symbol ∧ symbol.line = first := by
  have hreport : d ∈ (FirstPass.run lines).duplicateReports := by
    rcases List.mem_append.mp hd with hd | hd
    · exact List.mem_filter.mpr ⟨hd, by rw [hfinding]; rfl⟩
    · have hother := isDuplicateLabel_of_mem hfault hd
      rw [hfinding] at hother
      cases hother
  rw [FirstPass.duplicateReports_run hplaced] at hreport
  obtain ⟨s, -, hown⟩ := List.mem_filterMap.mp hreport
  obtain ⟨name, symbol, -, hsymbol, -, rfl⟩ := Statement.labelReport?_eq_some_iff.mp hown
  obtain ⟨rfl, rfl⟩ := Finding.duplicateLabel.inj hfinding
  exact ⟨symbol, hsymbol, rfl⟩

/-- **A reference that has a code is coded at its definition.** -/
theorem exists_codedAt (hplaced : (FirstPass.run lines).result = .ok placed)
    (hfault : (run placed).fault = none) {t : Statement} (ht : t ∈ (run placed).statements)
    {label code : String} (hcode : t.code = some code)
    (hop : t.operand = some (.direct label) ∨ ∃ index, t.operand = some (.indexed label index)) :
    ∃ symbol address, t.definition? (run placed).statements = some symbol
      ∧ symbol.address = some address ∧ t.CodedAt address code := by
  have hcoded := codedAs hplaced hfault ht hcode
  rcases hop with hop | ⟨index, hop⟩
  · obtain ⟨op, v, hmachine, hfound, rfl⟩ := hcoded.of_direct hop
    rw [Statement.referent?, hop] at hfound
    obtain ⟨symbol, hsymbol, haddress⟩ := Option.bind_eq_some_iff.mp hfound
    refine ⟨symbol, _, ?_, haddress, .direct hmachine hop⟩
    rw [Statement.definition?, hop]
    exact hsymbol
  · obtain ⟨op, v, field, hmachine, hfound, -, hfield, rfl⟩ := hcoded.of_indexed hop
    rw [Statement.referent?, hop] at hfound
    obtain ⟨symbol, hsymbol, haddress⟩ := Option.bind_eq_some_iff.mp hfound
    refine ⟨symbol, _, ?_, haddress, .indexed hmachine hop hfield⟩
    rw [Statement.definition?, hop]
    exact hsymbol

/-- A statement behind the first one of its label is reported. -/
theorem report_mem_diagnostics (hplaced : (FirstPass.run lines).result = .ok placed)
    (hfault : (run placed).fault = none) {s : Statement} (hs : s ∈ (run placed).statements)
    {label : String} (hlabel : s.label = some label) {symbol : Symbol}
    (hsymbol : (SymbolTable.all placed).get? label = some symbol) (hlt : symbol.line < s.line) :
    ⟨s.line, .duplicateLabel label symbol.line⟩ ∈ (FirstPass.run lines).diagnostics := by
  have hmem : s.uncoded ∈ placed := by
    rw [← map_uncoded hplaced hfault]
    exact List.mem_map_of_mem hs
  have hreport : s.uncoded.labelReport? (SymbolTable.all placed)
      = some ⟨s.line, .duplicateLabel label symbol.line⟩ :=
    Statement.labelReport?_eq_some_iff.mpr ⟨label, symbol, hlabel, hsymbol, hlt, rfl⟩
  have hreported := List.mem_filterMap.mpr ⟨s.uncoded, hmem, hreport⟩
  rw [← FirstPass.duplicateReports_run hplaced] at hreported
  exact (List.mem_filter.mp hreported).1

end SecondPass

/-- **Where the references to a repeated label go.** In a program that goes through both
passes, a report that a label was defined before names the first line of that label. Every
reference to the label without an index register that has a code has it from the address of
that line. A reference with an index register has it from the address of the first line of
data with the label. That is the line in the report exactly if that line is one of data, and
otherwise it is a later line, for which the same report is made. -/
theorem repeated_label_references {lines : List String} {placed : List Statement}
    (hplaced : (FirstPass.run lines).result = .ok placed)
    (hfault : (SecondPass.run placed).fault = none) {d : Diagnostic} {label : String} {first : Nat}
    (hd : d ∈ (FirstPass.run lines).diagnostics ++ (SecondPass.run placed).diagnostics)
    (hfinding : d.finding = .duplicateLabel label first) :
    ∃ target : Statement,
      target.IsFirst (SecondPass.run placed).statements (·.label = some label)
      ∧ target.line = first
      ∧ (∀ t ∈ (SecondPass.run placed).statements, ∀ code,
          t.operand = some (.direct label) → t.code = some code →
          ∃ address, target.address = some address ∧ t.CodedAt address code)
      ∧ ∀ t ∈ (SecondPass.run placed).statements, ∀ index code,
          t.operand = some (.indexed label index) → t.code = some code →
          ∃ (data : Statement) (address : String),
            data.IsFirst (SecondPass.run placed).statements
              (fun s => s.mnemonic.isStorage = true ∧ s.label = some label)
            ∧ data.address = some address ∧ t.CodedAt address code
            ∧ (data = target ↔ target.mnemonic.isStorage = true)
            ∧ (data ≠ target → first < data.line
              ∧ ⟨data.line, .duplicateLabel label first⟩ ∈ (FirstPass.run lines).diagnostics) := by
  have hsorted := SecondPass.pairwise_line hplaced hfault
  obtain ⟨symbol, hsymbol, rfl⟩ :=
    SecondPass.exists_get?_all_of_report hplaced hfault hd hfinding
  have hknown : (SymbolTable.all (SecondPass.run placed).statements).get? label = some symbol := by
    rw [SecondPass.all_run, hsymbol]
  obtain ⟨target, htarget, haddress, hline⟩ := Statement.isFirst_of_get?_all hsorted hknown
  refine ⟨target, htarget, hline, fun t ht code hop hcode => ?_,
    fun t ht index code hop hcode => ?_⟩
  · obtain ⟨found, address, hfound, hat, hcoded⟩ :=
      SecondPass.exists_codedAt hplaced hfault ht hcode (.inl hop)
    rw [Statement.definition?, hop] at hfound
    obtain rfl : symbol = found := Option.some.inj (hknown.symm.trans hfound)
    exact ⟨address, haddress.trans hat, hcoded⟩
  · obtain ⟨found, address, hfound, hat, hcoded⟩ :=
      SecondPass.exists_codedAt hplaced hfault ht hcode (.inr ⟨index, hop⟩)
    rw [Statement.definition?_eq_find?] at hfound
    obtain ⟨data, hdata, hdataAt, -⟩ := Statement.isFirst_of_symbol? hsorted hfound
    simp only [Statement.definedBy, hop, decide_eq_true_eq] at hdata
    have hlabel (u : Statement) (hu : u.mnemonic.isStorage = true ∧ u.label = some label) :
        u.label = some label := hu.2
    refine ⟨data, address, hdata, hdataAt.trans hat, hcoded, ?_, fun hne => ?_⟩
    · rw [htarget.eq_iff hsorted hdata hlabel, and_iff_left htarget.holds]
    · have hlt : symbol.line < data.line := hline ▸ htarget.line_lt hsorted hdata hlabel hne
      exact ⟨hlt, SecondPass.report_mem_diagnostics hplaced hfault hdata.mem hdata.holds.2
        hsymbol hlt⟩

/-- A label that is first defined by an operation and then by a constant. -/
def shadowedData : List String := ["P START 1000", "X LDA X,X", "X WORD 1", "LDA X"]

/-- Its reference with an index register, which is also where its label is first defined. -/
def indexedLoad : Statement :=
  { line := 2, label := some "X", mnemonic := .machine (.memory "LDA" 0)
    operand := some (.indexed "X" "X"), address := some "1000", code := some "009003" }

/-- Its reference without an index register. -/
def directLoad : Statement :=
  { line := 4, label := none, mnemonic := .machine (.memory "LDA" 0)
    operand := some (.direct "X"), address := some "1006", code := some "001000" }

/-- The statements that both passes make of it. -/
def shadowedStatements : List Statement :=
  [{ line := 1, label := some "P", mnemonic := .directive .start
     operand := some (.literal "1000"), address := some "1000" },
   indexedLoad,
   { line := 3, label := some "X", mnemonic := .directive .word
     operand := some (.literal "1"), address := some "1003", code := some "000001" },
   directLoad]

theorem exists_shadowedStatements :
    ∃ placed, (FirstPass.run shadowedData).result = .ok placed
      ∧ (SecondPass.run placed).fault = none
      ∧ (SecondPass.run placed).statements = shadowedStatements
      ∧ (FirstPass.run shadowedData).diagnostics = [⟨3, .duplicateLabel "X" 2⟩] := by
  have hseen : (FirstPass.run shadowedData).result.toOption.map (fun placed =>
      ((SecondPass.run placed).fault, (SecondPass.run placed).statements))
      = some (none, shadowedStatements) := by
    decide +kernel
  obtain ⟨placed, hplaced, hseen⟩ := Option.map_eq_some_iff.mp hseen
  obtain ⟨hfault, hstatements⟩ := Prod.mk.inj hseen
  exact ⟨placed, eq_ok_of_toOption hplaced, hfault, hstatements, by decide +kernel⟩

/-- The last line refers to line 2, and line 2 itself refers to the constant on line 3. -/
theorem repeated_label_references_shadowed :
    ∃ (placed : List Statement) (target data : Statement) (address address' : String),
      (FirstPass.run shadowedData).result = .ok placed
      ∧ (SecondPass.run placed).fault = none
      ∧ ⟨3, .duplicateLabel "X" 2⟩ ∈ (FirstPass.run shadowedData).diagnostics
      ∧ target ∈ (SecondPass.run placed).statements ∧ target.line = 2
      ∧ target.address = some address
      ∧ (∃ t ∈ (SecondPass.run placed).statements, t.operand = some (.direct "X")
        ∧ t.code = some "001000" ∧ t.CodedAt address "001000")
      ∧ data ∈ (SecondPass.run placed).statements ∧ 2 < data.line
      ∧ data.address = some address'
      ∧ ∃ t ∈ (SecondPass.run placed).statements, t.operand = some (.indexed "X" "X")
        ∧ t.code = some "009003" ∧ t.CodedAt address' "009003" := by
  obtain ⟨placed, hplaced, hfault, hstatements, hdiagnostics⟩ := exists_shadowedStatements
  have hd : ⟨3, .duplicateLabel "X" 2⟩ ∈ (FirstPass.run shadowedData).diagnostics := by
    rw [hdiagnostics]
    exact List.mem_singleton.mpr rfl
  obtain ⟨target, htarget, hline, hdirect, hindexed⟩ :=
    repeated_label_references hplaced hfault (List.mem_append_left _ hd) rfl
  rw [hstatements] at htarget hdirect hindexed
  obtain ⟨address, haddress, hcoded⟩ :=
    hdirect directLoad (by decide) "001000" rfl rfl
  obtain ⟨data, address', hdata, haddress', hcoded', hsame, hreported⟩ :=
    hindexed indexedLoad (by decide) "X" "009003" rfl rfl
  have hoperation : ∀ s ∈ shadowedStatements, s.line = 2 → s.mnemonic.isStorage = false := by
    decide
  have hne : data ≠ target := fun h => by
    have hstorage := hsame.mp h
    rw [hoperation target htarget.mem hline] at hstorage
    cases hstorage
  refine ⟨placed, target, data, address, address', hplaced, hfault, hd, ?_⟩
  rw [hstatements]
  exact ⟨htarget.mem, hline, haddress, ⟨_, by decide, rfl, rfl, hcoded⟩, hdata.mem,
    (hreported hne).1, haddress', ⟨_, by decide, rfl, rfl, hcoded'⟩⟩

/-- **A reference with an index register goes past the line in the report.** The report
names line 2, which lies at 1000, and the reference is not coded at that address. -/
theorem indexed_reference_misses_first :
    ∃ (placed : List Statement) (t target : Statement),
      (FirstPass.run shadowedData).result = .ok placed
      ∧ (SecondPass.run placed).fault = none
      ∧ ⟨3, .duplicateLabel "X" 2⟩ ∈ (FirstPass.run shadowedData).diagnostics
      ∧ t ∈ (SecondPass.run placed).statements ∧ target ∈ (SecondPass.run placed).statements
      ∧ t.operand = some (.indexed "X" "X") ∧ t.code = some "009003"
      ∧ target.line = 2 ∧ target.address = some "1000" ∧ ¬ t.CodedAt "1000" "009003" := by
  obtain ⟨placed, hplaced, hfault, hstatements, hdiagnostics⟩ := exists_shadowedStatements
  refine ⟨placed, indexedLoad, indexedLoad, hplaced, hfault, ?_⟩
  rw [hstatements, hdiagnostics]
  refine ⟨List.mem_singleton.mpr rfl, by decide, by decide, rfl, rfl, rfl, rfl, fun hcoded => ?_⟩
  generalize hcode : "009003" = code at hcoded
  have hfield : indexedField "1000" = .ok "9000" := by decide +kernel
  cases hcoded with
  | direct _ hop => cases hop
  | indexed hmachine _ hmade =>
    cases hmachine
    cases hfield.symm.trans hmade
    revert hcode
    decide

end TwoPass
