import TwoPass.Proofs.Grammar
import TwoPass.Proofs.RepeatedLabels

/-!
# What is reported about a program

Both passes report as they go, the first out of its layout and the second out of its symbol
tables. This module gives an account of all of it in terms of the finished program.

The first pass has at most two things to say about a statement, one about its label and one
about its place in memory (`Statement.exists_warnings_eq`). They are warnings, and they come
in the order of the lines.

The second pass has at most one thing to say, and what it is can be read off the finished
statement alone, without the tables: `Statement.remark?` asks whether there is a code where
one is called for, and whether the number of a constant is too long. So the reports of the
second pass are the remarks about the statements, line by line
(`SecondPass.diagnostics_eq_filterMap`), and a question about them is a question about one
statement (`SecondPass.mem_diagnostics_iff`).
-/

namespace TwoPass

/-! ## The first pass -/

namespace Statement

variable {before statements : List Statement} {s : Statement}

/-- What is said about a size is one thing at most. -/
theorem size_snd_cases (s : Statement) :
    s.size.2 = [] ∨ s.size.2 = [⟨s.line, .badReserveCount s.mnemonic.name s.operandText⟩] := by
  have hreserve (unit : Nat) : (s.reserve unit).2 = []
      ∨ (s.reserve unit).2 = [⟨s.line, .badReserveCount s.mnemonic.name s.operandText⟩] := by
    unfold reserve
    split
    · exact .inl rfl
    · exact .inr rfl
  unfold size
  split
  · exact .inl rfl
  · exact .inl rfl
  · exact hreserve 3
  · exact hreserve 1
  · exact .inl rfl

/-- There is nothing to say about the size of a `START`. -/
theorem size_snd_of_isStart (h : s.isStart = true) : s.size.2 = [] := by
  have hstart : s.mnemonic = .directive .start := by simpa [isStart] using h
  rw [size, hstart]

theorem originFindings_cases (s : Statement) :
    s.originFindings = [] ∨ s.originFindings = [⟨s.line, .missingOrigin⟩] := by
  unfold originFindings
  split
  · exact .inl rfl
  · exact .inr rfl

/-- **A statement is told two things at most**, one about its label and one about its
place. A `START` has an address, so it can miss its origin but not its `START`. -/
theorem exists_warnings_eq (before : List Statement)
    (h : s.isStart = true → s.address.isSome = true) :
    ∃ label place : Option Finding,
      s.warnings before = (label.toList ++ place.toList).map (Diagnostic.mk s.line) := by
  have hlabel : ∃ label : Option Finding,
      s.labelFindings before = label.toList.map (Diagnostic.mk s.line) := by
    refine ⟨s.label.bind fun name => (before.find? (·.label = some name)).map fun first =>
      .duplicateLabel name first.line, ?_⟩
    unfold labelFindings
    cases s.label with
    | none => rfl
    | some name =>
      rw [Option.bind_some, Option.bind_some]
      cases before.find? (·.label = some name) with
      | none => rfl
      | some first => rfl
  have hplace : ∃ place : Option Finding,
      (if s.isStart then s.originFindings else [])
          ++ (if s.address.isSome then s.size.2 else [⟨s.line, .missingStart⟩])
        = place.toList.map (Diagnostic.mk s.line) := by
    cases hstart : s.isStart with
    | true =>
      rw [if_pos rfl, if_pos (h hstart), size_snd_of_isStart hstart, List.append_nil]
      rcases s.originFindings_cases with hnone | hone
      · exact ⟨none, hnone⟩
      · exact ⟨some _, hone⟩
    | false =>
      rw [if_neg Bool.false_ne_true, List.nil_append]
      split
      · rcases s.size_snd_cases with hnone | hone
        · exact ⟨none, hnone⟩
        · exact ⟨some _, hone⟩
      · exact ⟨some .missingStart, rfl⟩
  obtain ⟨label, hlabel⟩ := hlabel
  obtain ⟨place, hplace⟩ := hplace
  refine ⟨label, place, ?_⟩
  rw [warnings, List.append_assoc, hlabel, hplace, List.map_append]

theorem line_of_mem_warnings (h : s.isStart = true → s.address.isSome = true) {d : Diagnostic}
    (hd : d ∈ s.warnings before) : d.line = s.line := by
  obtain ⟨label, place, hwarnings⟩ := exists_warnings_eq before h
  rw [hwarnings] at hd
  obtain ⟨finding, -, rfl⟩ := List.mem_map.mp hd
  rfl

theorem length_warnings_le (before : List Statement)
    (h : s.isStart = true → s.address.isSome = true) : (s.warnings before).length ≤ 2 := by
  obtain ⟨label, place, hwarnings⟩ := exists_warnings_eq before h
  have hone (found : Option Finding) : found.toList.length ≤ 1 := by
    cases found <;> simp
  have hlabel := hone label
  have hplace := hone place
  rw [hwarnings, List.length_map, List.length_append]
  omega

/-! What holds of the warnings about one statement goes over to a program whose lines go
up: the warnings about the next statement are behind them, on a later line. -/

theorem exists_line_of_mem_warningsFrom
    (hstarts : ∀ s ∈ statements, s.isStart = true → s.address.isSome = true) {d : Diagnostic}
    (hd : d ∈ warningsFrom before statements) : ∃ s ∈ statements, d.line = s.line := by
  induction statements generalizing before with
  | nil => cases hd
  | cons s more ih =>
    rcases List.mem_append.mp hd with hd | hd
    · exact ⟨s, List.mem_cons_self, line_of_mem_warnings (hstarts s List.mem_cons_self) hd⟩
    · obtain ⟨t, ht, hline⟩ := ih (fun t ht => hstarts t (List.mem_cons_of_mem s ht)) hd
      exact ⟨t, List.mem_cons_of_mem s ht, hline⟩

theorem pairwise_warningsFrom (before : List Statement)
    (hsorted : statements.Pairwise fun s t => s.line < t.line)
    (hstarts : ∀ s ∈ statements, s.isStart = true → s.address.isSome = true) :
    (warningsFrom before statements).Pairwise fun d e => d.line ≤ e.line := by
  induction statements generalizing before with
  | nil => exact .nil
  | cons s more ih =>
    obtain ⟨hlater, hmore⟩ := List.pairwise_cons.mp hsorted
    have hown := hstarts s List.mem_cons_self
    have hrest : ∀ t ∈ more, t.isStart = true → t.address.isSome = true := fun t ht =>
      hstarts t (List.mem_cons_of_mem s ht)
    refine List.pairwise_append.mpr ⟨?_, ih _ hmore hrest, fun d hd e he => ?_⟩
    · refine List.pairwise_of_forall_mem_list fun d hd e he => ?_
      rw [line_of_mem_warnings hown hd, line_of_mem_warnings hown he]
    · obtain ⟨t, ht, hline⟩ := exists_line_of_mem_warningsFrom hrest he
      rw [line_of_mem_warnings hown hd, hline]
      exact Nat.le_of_lt (hlater t ht)

theorem countP_warningsFrom_le (before : List Statement)
    (hsorted : statements.Pairwise fun s t => s.line < t.line)
    (hstarts : ∀ s ∈ statements, s.isStart = true → s.address.isSome = true) (n : Nat) :
    (warningsFrom before statements).countP (·.line = n) ≤ 2 := by
  induction statements generalizing before with
  | nil => exact Nat.zero_le 2
  | cons s more ih =>
    obtain ⟨hlater, hmore⟩ := List.pairwise_cons.mp hsorted
    have hown := hstarts s List.mem_cons_self
    have hrest : ∀ t ∈ more, t.isStart = true → t.address.isSome = true := fun t ht =>
      hstarts t (List.mem_cons_of_mem s ht)
    rw [warningsFrom, List.countP_append]
    by_cases hn : s.line = n
    · -- then no later statement is on the line
      have hnone : (warningsFrom (before ++ [s]) more).countP (·.line = n) = 0 := by
        refine List.countP_eq_zero.mpr fun d hd => ?_
        obtain ⟨t, ht, hline⟩ := exists_line_of_mem_warningsFrom hrest hd
        have hlt := hlater t ht
        simp only [decide_eq_true_eq]
        omega
      have hcount := (s.warnings before).countP_le_length (p := (·.line = n))
      have hlength := length_warnings_le before hown
      omega
    · have hnone : (s.warnings before).countP (·.line = n) = 0 := by
        refine List.countP_eq_zero.mpr fun d hd => ?_
        rw [line_of_mem_warnings hown hd]
        simpa using hn
      have hmost := ih (before ++ [s]) hmore hrest
      omega

/-- A statement misses a `START` exactly if it has no address. -/
theorem filter_reportsMissingStart_warnings (before : List Statement) (s : Statement) :
    (s.warnings before).filter Layout.reportsMissingStart
      = if s.address.isNone then [⟨s.line, .missingStart⟩] else [] := by
  have hlabel : (s.labelFindings before).filter Layout.reportsMissingStart = [] := by
    refine List.filter_eq_nil_iff.mpr fun d hd => ?_
    obtain ⟨name, first, hfinding⟩ := finding_of_mem_labelFindings hd
    simp [Layout.reportsMissingStart, hfinding]
  have horigin : (if s.isStart then s.originFindings else []).filter
      Layout.reportsMissingStart = [] := by
    refine List.filter_eq_nil_iff.mpr fun d hd => ?_
    split at hd
    · simp [Layout.reportsMissingStart, finding_of_mem_originFindings hd]
    · cases hd
  have hsize : s.size.2.filter Layout.reportsMissingStart = [] := by
    rw [← List.length_eq_zero_iff, ← List.countP_eq_length_filter, Layout.countP_size]
  rw [warnings, List.filter_append, List.filter_append, hlabel, horigin, List.nil_append,
    List.nil_append]
  cases s.address with
  | none => rfl
  | some address => exact hsize

theorem filter_reportsMissingStart_warningsFrom (before statements : List Statement) :
    (warningsFrom before statements).filter Layout.reportsMissingStart
      = (statements.filter (·.address.isNone)).map fun s => ⟨s.line, .missingStart⟩ := by
  induction statements generalizing before with
  | nil => rfl
  | cons s more ih =>
    rw [warningsFrom, List.filter_append, filter_reportsMissingStart_warnings, ih, List.filter_cons]
    split <;> rfl

end Statement

/-- The first line is the only one that can be without an address, and it is if it is no
`START`. -/
theorem Plain.Placed.address_eq_none_iff {lines : List String} {k : Nat} {s : Statement}
    (h : Placed lines k s) : s.address = none ↔ s.line = 1 ∧ s.isStart = false := by
  have haddress : s.address = none ↔ address lines k = none := by
    obtain ⟨t, -, rfl⟩ := h
    exact Option.map_eq_none_iff
  rw [haddress, Plain.address_eq_none_iff, h.line, h.isStart]
  constructor
  · rintro ⟨rfl, hstart⟩
    exact ⟨rfl, hstart⟩
  · rintro ⟨hline, hstart⟩
    obtain rfl : k = 0 := by omega
    exact ⟨rfl, hstart⟩

namespace FirstPass

variable {lines : List String} {statements : List Statement}

theorem address_eq_none_iff (h : (run lines).result = .ok statements) {s : Statement}
    (hs : s ∈ statements) : s.address = none ↔ s.line = 1 ∧ s.isStart = false := by
  obtain ⟨k, hk⟩ := List.mem_iff_getElem?.mp hs
  exact ((run_plain h).2.2 k s hk).address_eq_none_iff

/-- A `START` has an address. -/
theorem isSome_address_of_isStart (h : (run lines).result = .ok statements) :
    ∀ s ∈ statements, s.isStart = true → s.address.isSome = true := by
  intro s hs hstart
  rw [← Option.ne_none_iff_isSome, ne_eq, address_eq_none_iff h hs, hstart]
  exact fun hnone => Bool.false_ne_true hnone.2.symm

/-- **A missing `START` is reported once, about the first line**, if there is one and it is
no `START`. -/
theorem filter_reportsMissingStart_run (h : (run lines).result = .ok statements) :
    (run lines).diagnostics.filter Layout.reportsMissingStart
      = if statements.head?.any (!·.isStart) then [⟨1, .missingStart⟩] else [] := by
  rw [diagnostics_run h, Statement.filter_reportsMissingStart_warningsFrom]
  cases statements with
  | nil => rfl
  | cons first more =>
    have hline : first.line = 1 := ((run_plain h).2.2 0 first rfl).line
    have hlater := (List.pairwise_cons.mp (pairwise_line h)).1
    have hmore : more.filter (·.address.isNone) = [] := by
      refine List.filter_eq_nil_iff.mpr fun t ht => ?_
      rw [Option.isNone_iff_eq_none, address_eq_none_iff h (List.mem_cons_of_mem first ht)]
      have hlt := hlater t ht
      omega
    have hfirst : first.address.isNone = !first.isStart := by
      rw [Bool.eq_iff_iff, Option.isNone_iff_eq_none, address_eq_none_iff h List.mem_cons_self,
        Bool.not_eq_true']
      exact and_iff_right hline
    rw [List.filter_cons, hmore, hfirst, List.head?_cons, Option.any_some]
    split
    · rw [List.map_singleton, hline]
    · rfl

end FirstPass

/-! ## The second pass -/

/-- What an operand names, without the index register. -/
def Operand.label : Operand → String
  | .literal text => text
  | .direct label => label
  | .indexed label _ => label

namespace Statement

/-- The number of a constant, if it has more digits than a word. -/
def wideNumber? (t : Statement) : Option String :=
  match t.mnemonic, t.operand with
  | .directive .word, some (.literal number) =>
    if codeDigits < number.length then some number else none
  | _, _ => none

/-- **What there is to say about a finished statement**, as the statement shows it. If a
code is missing, its mnemonic or else its operand is unknown. If none is missing, a number
may still be too wide. -/
def remark? (t : Statement) : Option Finding :=
  if t.lacksCode then
    match t.mnemonic with
    | .unknown name => some (.unknownMnemonic name)
    | mnemonic => t.operand.map fun operand => .unresolvedSymbol mnemonic.name operand.label
  else t.wideNumber?.map .operandTooWide

/-- The remark about a statement as a diagnostic. -/
def report? (t : Statement) : Option Diagnostic := t.remark?.map (Diagnostic.mk t.line)

variable {t : Statement}

theorem wideNumber?_eq_some_iff {number : String} :
    t.wideNumber? = some number ↔ t.mnemonic = .directive .word
      ∧ t.operand = some (.literal number) ∧ codeDigits < number.length := by
  unfold wideNumber?
  split
  · next own hword hop =>
    rw [hword, hop, Option.ite_none_right_eq_some]
    constructor
    · rintro ⟨hwide, hown⟩
      cases hown
      exact ⟨rfl, rfl, hwide⟩
    · rintro ⟨-, hown, hwide⟩
      cases hown
      exact ⟨hwide, rfl⟩
  · next hother =>
    constructor
    · intro h
      cases h
    · rintro ⟨hword, hop, -⟩
      exact absurd hop (hother number hword)

/-- Only the number of a constant can be too wide. -/
theorem wideNumber?_eq_none
    (h : ∀ number, t.operand = some (.literal number) → t.mnemonic ≠ .directive .word) :
    t.wideNumber? = none := by
  refine Option.eq_none_iff_forall_ne_some.mpr fun number hnumber => ?_
  obtain ⟨hword, hop, -⟩ := wideNumber?_eq_some_iff.mp hnumber
  exact h number hop hword

theorem remark?_of_coded (h : t.lacksCode = false) :
    t.remark? = t.wideNumber?.map .operandTooWide := by
  rw [remark?, h]
  rfl

/-- A missing code behind a byte is that of an operand. -/
theorem remark?_of_byte? {byte : String} (hbyte : t.mnemonic.byte? = some byte)
    (hcode : t.code = none) {operand : Operand} (hop : t.operand = some operand) :
    t.remark? = some (.unresolvedSymbol t.mnemonic.name operand.label) := by
  unfold Mnemonic.byte? at hbyte
  unfold remark? lacksCode
  split at hbyte
  · next op hmachine =>
    rw [hmachine, hcode, hop]
    rfl
  · next hword =>
    rw [hword, hcode, hop]
    rfl
  · cases hbyte

/-- **What a remark can be**, and what the statement is like then. -/
theorem remark?_cases {finding : Finding} (h : t.remark? = some finding) :
    (∃ name, t.lacksCode = true ∧ t.mnemonic = .unknown name ∧ finding = .unknownMnemonic name)
      ∨ (∃ operand, t.lacksCode = true ∧ t.operand = some operand
          ∧ finding = .unresolvedSymbol t.mnemonic.name operand.label)
      ∨ ∃ number, t.lacksCode = false ∧ t.wideNumber? = some number
          ∧ finding = .operandTooWide number := by
  cases hlacks : t.lacksCode with
  | true =>
    rw [remark?, if_pos hlacks] at h
    split at h
    · next name hname =>
      cases h
      exact .inl ⟨name, rfl, hname, rfl⟩
    · obtain ⟨operand, hop, rfl⟩ := Option.map_eq_some_iff.mp h
      exact .inr (.inl ⟨operand, rfl, hop, rfl⟩)
  | false =>
    rw [remark?_of_coded hlacks] at h
    obtain ⟨number, hnumber, rfl⟩ := Option.map_eq_some_iff.mp h
    exact .inr (.inr ⟨number, rfl, hnumber, rfl⟩)

theorem remark?_eq_unknownMnemonic_iff {name : String} :
    t.remark? = some (.unknownMnemonic name) ↔ t.lacksCode = true ∧ t.mnemonic = .unknown name := by
  constructor
  · intro h
    rcases remark?_cases h with ⟨own, hlacks, hname, hfinding⟩ | ⟨_, _, _, hfinding⟩
      | ⟨_, _, _, hfinding⟩
    · cases hfinding
      exact ⟨hlacks, hname⟩
    · cases hfinding
    · cases hfinding
  · rintro ⟨hlacks, hname⟩
    rw [remark?, if_pos hlacks, hname]

theorem remark?_eq_operandTooWide_iff {number : String} :
    t.remark? = some (.operandTooWide number)
      ↔ t.lacksCode = false ∧ t.wideNumber? = some number := by
  constructor
  · intro h
    rcases remark?_cases h with ⟨_, _, _, hfinding⟩ | ⟨_, _, _, hfinding⟩
      | ⟨own, hlacks, hnumber, hfinding⟩
    · cases hfinding
    · cases hfinding
    · cases hfinding
      exact ⟨hlacks, hnumber⟩
  · rintro ⟨hlacks, hnumber⟩
    rw [remark?_of_coded hlacks, hnumber]
    rfl

variable {storage labels : SymbolTable} {made : ObjectCode}

/-- A constant with a number gets a code, unless the number ends the pass. -/
theorem isSome_code_of_constant (hword : t.mnemonic = .directive .word) {number : String}
    (hop : t.operand = some (.literal number)) (hmade : t.encode storage labels = .ok made) :
    made.code.isSome = true := by
  rw [encode, hword] at hmade
  simp only [hop, encodeConstant] at hmade
  split at hmade
  · cases hmade
  · split at hmade
    · cases hmade
      rfl
    · cases hmade
      rfl

/-- **The second pass says about a statement what the finished statement shows.** The tables
decide whether there is a code, and nothing else. -/
theorem Coding.findings_eq (h : t.Coding storage labels (.ok made)) (hcode : t.code = made.code) :
    made.findings = t.remark?.toList := by
  have hcoded {code : String} (hsome : t.code = some code) : t.lacksCode = false := by
    rw [lacksCode, hsome, Option.isNone_some, Bool.and_false]
  cases h with
  | silent huncoded =>
    have hword : t.mnemonic ≠ .directive .word := by
      intro hword
      rw [hword] at huncoded
      cases huncoded
    have hlacks : t.lacksCode = false := by rw [lacksCode, huncoded, Bool.false_and]
    rw [remark?_of_coded hlacks, wideNumber?_eq_none fun _ _ => hword]
    rfl
  | unknown hname =>
    rw [remark?, lacksCode, hname, hcode]
    rfl
  | constant hword hop hpadded =>
    -- filling up a number with zeros makes no number too wide that was not
    obtain ⟨-, rfl⟩ := Hex.padLeft_eq_ok_iff.mp hpadded
    rw [remark?_of_coded (hcoded hcode), wideNumber?, hword, hop]
    simp only [Hex.length_leftpad, lt_max_iff, lt_irrefl, false_or]
    split <;> rfl
  | bare hbyte hop =>
    rw [remark?_of_coded (hcoded hcode), wideNumber?_eq_none (by simp [hop])]
    rfl
  | undefined hbyte hrefers =>
    rcases hrefers with ⟨hrefers, -⟩ | ⟨index, hop, -⟩
    · rcases target?_eq_some hrefers with hop | ⟨hop, -⟩
      · rw [remark?_of_byte? hbyte hcode hop]
        rfl
      · rw [remark?_of_byte? hbyte hcode hop]
        rfl
    · rw [remark?_of_byte? hbyte hcode hop]
      rfl
  | direct hbyte hrefers hfound =>
    rw [remark?_of_coded (hcoded hcode), wideNumber?_eq_none]
    · rfl
    · intro number hnumber
      rcases target?_eq_some hrefers with hop | ⟨-, hword⟩
      · simp [hop] at hnumber
      · exact hword
  | indexed hbyte hop hfound hmade =>
    rw [remark?_of_coded (hcoded hcode), wideNumber?_eq_none (by simp [hop])]
    rfl

/-- The remark is an error exactly if the statement lacks its code. -/
theorem Coding.any_error_remark? (h : t.Coding storage labels (.ok made))
    (hcode : t.code = made.code) : t.remark?.any (·.severity = .error) = t.lacksCode := by
  have hown : (t.remark?.toList.map (Diagnostic.mk t.line)).countP Diagnostic.isError
      = if t.remark?.any (·.severity = .error) then 1 else 0 := by
    cases t.remark? with
    | none => rfl
    | some finding => exact List.countP_singleton
  have hcount : _ = if t.lacksCode then 1 else 0 := hcode ▸ h.countP_isError
  rw [h.findings_eq hcode, hown] at hcount
  generalize t.remark?.any (·.severity = .error) = reported, t.lacksCode = lacking at hcount ⊢
  decide +revert

end Statement

/-- What calls for a code is neither a `START` or `END` nor a reservation. -/
theorem Mnemonic.isCoded_iff (mnemonic : Mnemonic) :
    mnemonic.isCoded = true ↔ mnemonic ∉ [.directive .start, .directive .finish,
      .directive .reserveWords, .directive .reserveBytes] := by
  cases mnemonic with
  | machine op => simp [isCoded]
  | directive d => cases d <;> decide
  | unknown name => simp [isCoded]

/-- A word is looked up in vain exactly if no entry of the table has it for a name. -/
theorem Mnemonic.lookup_eq_unknown_iff {word name : String} :
    lookup word = .unknown name ↔ word = name ∧ ∀ entry ∈ table, entry.name ≠ name := by
  constructor
  · intro h
    have hnames : Names word (.unknown name) := names_iff.mpr h.symm
    cases hnames with
    | entry listed _ => simp [table] at listed
    | nothing unlisted => exact ⟨rfl, unlisted⟩
  · rintro ⟨rfl, unlisted⟩
    exact (names_iff.mp (.nothing unlisted)).symm

namespace SecondPass

variable {lines : List String} {placed : List Statement}

/-- A statement of a finished program is encoded in one of the ways there are. -/
theorem exists_coding (hfault : (run placed).fault = none) {t : Statement}
    (ht : t ∈ (run placed).statements) :
    ∃ made, t.Coding (SymbolTable.storage (run placed).statements)
        (SymbolTable.all (run placed).statements) (.ok made)
      ∧ t.code = made.code := by
  obtain ⟨made, hmade, hcode⟩ := exists_encode_eq hfault ht
  exact ⟨made, hmade ▸ t.coding_encode _ _, hcode⟩

/-- **The reports of the pass are the remarks about the finished statements.** -/
theorem diagnostics_eq_filterMap (hplaced : (FirstPass.run lines).result = .ok placed)
    (hfault : (run placed).fault = none) :
    (run placed).diagnostics = (run placed).statements.filterMap Statement.report? := by
  rw [diagnostics_run hplaced hfault, List.filterMap_eq_flatMap_toList]
  refine List.flatMap_congr fun t ht => ?_
  obtain ⟨made, hcoding, hcode⟩ := exists_coding hfault ht
  rw [Statement.findings, hcoding.encode_eq]
  show made.findings.map _ = _
  rw [hcoding.findings_eq hcode, Statement.report?]
  cases t.remark? with
  | none => rfl
  | some finding => rfl

/-- Every report is the remark about a statement. -/
theorem exists_remark?_of_mem (hplaced : (FirstPass.run lines).result = .ok placed)
    (hfault : (run placed).fault = none) {d : Diagnostic} (hd : d ∈ (run placed).diagnostics) :
    ∃ t ∈ (run placed).statements, t.line = d.line ∧ t.remark? = some d.finding := by
  rw [diagnostics_eq_filterMap hplaced hfault] at hd
  obtain ⟨t, ht, hreport⟩ := List.mem_filterMap.mp hd
  obtain ⟨finding, hremark, rfl⟩ := Option.map_eq_some_iff.mp hreport
  exact ⟨t, ht, rfl, hremark⟩

/-- **The report about a line is the remark about its statement.** -/
theorem mem_diagnostics_iff (hplaced : (FirstPass.run lines).result = .ok placed)
    (hfault : (run placed).fault = none) {t : Statement} (ht : t ∈ (run placed).statements)
    {finding : Finding} :
    ⟨t.line, finding⟩ ∈ (run placed).diagnostics ↔ t.remark? = some finding := by
  constructor
  · intro hd
    obtain ⟨u, hu, hline, hremark⟩ := exists_remark?_of_mem hplaced hfault hd
    obtain rfl := Statement.eq_of_line_eq (pairwise_line hplaced hfault) hu ht hline
    exact hremark
  · intro hremark
    rw [diagnostics_eq_filterMap hplaced hfault]
    exact List.mem_filterMap.mpr ⟨t, ht, by rw [Statement.report?, hremark]; rfl⟩

theorem pairwise_diagnostics (hplaced : (FirstPass.run lines).result = .ok placed)
    (hfault : (run placed).fault = none) :
    (run placed).diagnostics.Pairwise fun d e => d.line < e.line := by
  rw [diagnostics_eq_filterMap hplaced hfault, List.pairwise_filterMap]
  refine (pairwise_line hplaced hfault).imp fun {s t} hlt d hd e he => ?_
  obtain ⟨-, -, rfl⟩ := Option.map_eq_some_iff.mp hd
  obtain ⟨-, -, rfl⟩ := Option.map_eq_some_iff.mp he
  exact hlt

/-- The mnemonic of a statement is what a word of its line is looked up as. -/
theorem exists_lookup (hplaced : (FirstPass.run lines).result = .ok placed)
    (hfault : (run placed).fault = none) {t : Statement} (ht : t ∈ (run placed).statements) :
    ∃ word, t.mnemonic = Mnemonic.lookup word := by
  obtain ⟨k, hk⟩ := List.mem_iff_getElem?.mp ht
  obtain ⟨s, hread, hs⟩ := placed_of_getElem? hplaced hfault hk
  obtain ⟨word, -, -, hlookup, -⟩ := Plain.parts?_of_read hread
  exact ⟨word, (congrArg Statement.mnemonic hs).trans hlookup⟩

section Finished

variable (hplaced : (FirstPass.run lines).result = .ok placed) (hfault : (run placed).fault = none)
  {t : Statement} (ht : t ∈ (run placed).statements)

include hplaced hfault ht

/-- A line has an error exactly if its statement lacks its code. -/
theorem exists_error_iff :
    (∃ d ∈ (run placed).diagnostics, d.line = t.line ∧ d.severity = .error)
      ↔ t.lacksCode = true := by
  obtain ⟨made, hcoding, hcode⟩ := exists_coding hfault ht
  rw [← hcoding.any_error_remark? hcode, Option.any_eq_true]
  constructor
  · rintro ⟨⟨line, finding⟩, hd, hline, herror⟩
    obtain rfl : line = t.line := hline
    exact ⟨finding, (mem_diagnostics_iff hplaced hfault ht).mp hd, decide_eq_true herror⟩
  · rintro ⟨finding, hremark, herror⟩
    exact ⟨⟨t.line, finding⟩, (mem_diagnostics_iff hplaced hfault ht).mpr hremark, rfl,
      of_decide_eq_true herror⟩

/-- A mnemonic is reported exactly if the table does not have it. -/
theorem mem_unknownMnemonic_iff {name : String} :
    ⟨t.line, .unknownMnemonic name⟩ ∈ (run placed).diagnostics
      ↔ t.mnemonic.name = name ∧ ∀ entry ∈ Mnemonic.table, entry.name ≠ name := by
  obtain ⟨word, hlookup⟩ := exists_lookup hplaced hfault ht
  rw [mem_diagnostics_iff hplaced hfault ht, Statement.remark?_eq_unknownMnemonic_iff, hlookup,
    Mnemonic.name_lookup, ← Mnemonic.lookup_eq_unknown_iff]
  refine and_iff_right_of_imp fun hname => ?_
  -- an unknown mnemonic has no code
  have hcode : t.code = none := by
    refine Option.eq_none_iff_forall_ne_some.mpr fun code hcode => ?_
    rcases mnemonic_of_code hfault ht hcode with ⟨op, hop⟩ | hword
    · cases (hlookup.trans hname).symm.trans hop
    · cases (hlookup.trans hname).symm.trans hword
  rw [Statement.lacksCode, hlookup, hname, hcode]
  rfl

/-- A number is reported exactly if it is that of a constant and has more than six digits. -/
theorem mem_operandTooWide_iff {number : String} :
    ⟨t.line, .operandTooWide number⟩ ∈ (run placed).diagnostics
      ↔ t.mnemonic = .directive .word ∧ t.operand = some (.literal number) ∧ 6 < number.length := by
  rw [mem_diagnostics_iff hplaced hfault ht, Statement.remark?_eq_operandTooWide_iff,
    Statement.wideNumber?_eq_some_iff]
  refine and_iff_right_of_imp ?_
  rintro ⟨hword, hop, -⟩
  obtain ⟨made, hcoding, hcode⟩ := exists_coding hfault ht
  have hsome := Statement.isSome_code_of_constant hword hop hcoding.encode_eq
  rw [Statement.lacksCode, hcode, Option.isNone_eq_false_iff.mpr hsome, Bool.and_false]

end Finished

end SecondPass

/-! ## Both passes -/

/-- **An account of what both passes report** about a program, in terms of its finished
statements. -/
structure Accounted (statements : List Statement) (first second : List Diagnostic) : Prop where
  /-- The first pass only warns. -/
  warns : ∀ d ∈ first, d.severity = .warning
  /-- It goes by the lines. -/
  ordered : (first.map Diagnostic.line).Pairwise (· ≤ ·)
  /-- It says two things at most about a line. -/
  twice : ∀ n, first.countP (·.line = n) ≤ 2
  /-- The second pass goes by the lines too, and says one thing at most about a line. -/
  once : (second.map Diagnostic.line).Pairwise (· < ·)
  /-- Every report is about a line of the program. -/
  located : ∀ d ∈ first ++ second, ∃ t ∈ statements, t.line = d.line
  /-- The errors are about the statements that call for a code and have none. -/
  errors : ∀ t ∈ statements, (∃ d ∈ second, d.line = t.line ∧ d.severity = .error)
    ↔ t.mnemonic ∉ [.directive .start, .directive .finish, .directive .reserveWords,
        .directive .reserveBytes] ∧ t.code = none
  /-- A mnemonic is unknown if the table does not have it. -/
  unknown : ∀ t ∈ statements, ∀ name, ⟨t.line, .unknownMnemonic name⟩ ∈ second
    ↔ t.mnemonic.name = name ∧ ∀ entry ∈ Mnemonic.table, entry.name ≠ name
  /-- The numbers that are too wide are those of constants with more than six digits. -/
  wide : ∀ t ∈ statements, ∀ number, ⟨t.line, .operandTooWide number⟩ ∈ second
    ↔ t.mnemonic = .directive .word ∧ t.operand = some (.literal number) ∧ 6 < number.length
  /-- The second pass warns of nothing else. -/
  warned : ∀ d ∈ second, d.severity = .warning → ∃ number, d.finding = .operandTooWide number
  /-- A missing `START` is reported once, about the first line, if that is no `START`. -/
  missingStart : (first ++ second).filter Layout.reportsMissingStart
    = if statements.head?.any (!·.isStart) then [⟨1, .missingStart⟩] else []
  /-- That line is then without an address, and it is the only one. -/
  unplaced : ∀ t ∈ statements, t.address = none ↔ t.line = 1 ∧ t.isStart = false

namespace SecondPass

variable {lines : List String} {placed : List Statement}

/-- The second pass knows nothing of a missing `START`. -/
theorem filter_reportsMissingStart_run (hplaced : (FirstPass.run lines).result = .ok placed)
    (hfault : (run placed).fault = none) :
    (run placed).diagnostics.filter Layout.reportsMissingStart = [] := by
  refine List.filter_eq_nil_iff.mpr fun d hd => ?_
  obtain ⟨t, -, -, hremark⟩ := exists_remark?_of_mem hplaced hfault hd
  rcases Statement.remark?_cases hremark with ⟨_, _, _, hd⟩ | ⟨_, _, _, hd⟩ | ⟨_, _, _, hd⟩
  · simp [Layout.reportsMissingStart, hd]
  · simp [Layout.reportsMissingStart, hd]
  · simp [Layout.reportsMissingStart, hd]

/-- **All reports are accounted for.** If both passes come to their end, what they report is
what the first reports and then what the second does, and the finished program tells what
that is. -/
theorem reports_accounted (hplaced : (FirstPass.run lines).result = .ok placed)
    (hfault : (run placed).fault = none) :
    Event.diagnostics ((FirstPass.run lines).events ++ (run placed).events)
        = (FirstPass.run lines).diagnostics ++ (run placed).diagnostics
      ∧ Accounted (run placed).statements (FirstPass.run lines).diagnostics
          (run placed).diagnostics := by
  have hsorted := FirstPass.pairwise_line hplaced
  have hstarts := FirstPass.isSome_address_of_isStart hplaced
  have huncoded := map_uncoded hplaced hfault
  refine ⟨Event.diagnostics_append _ _, ?_⟩
  constructor
  case warns =>
    intro d hd
    have hlax : d.isError = false := FirstPass.isError_diagnostics lines d hd
    cases hseverity : d.severity with
    | warning => rfl
    | error => simp [Diagnostic.isError, hseverity] at hlax
  case ordered =>
    rw [FirstPass.diagnostics_run hplaced, List.pairwise_map]
    exact Statement.pairwise_warningsFrom [] hsorted hstarts
  case twice =>
    rw [FirstPass.diagnostics_run hplaced]
    exact Statement.countP_warningsFrom_le [] hsorted hstarts
  case once => exact List.pairwise_map.mpr (pairwise_diagnostics hplaced hfault)
  case located =>
    intro d hd
    rcases List.mem_append.mp hd with hd | hd
    · rw [FirstPass.diagnostics_run hplaced] at hd
      obtain ⟨s, hs, hline⟩ := Statement.exists_line_of_mem_warningsFrom hstarts hd
      rw [← huncoded] at hs
      obtain ⟨t, ht, rfl⟩ := List.mem_map.mp hs
      exact ⟨t, ht, hline.symm⟩
    · obtain ⟨t, ht, hline, -⟩ := exists_remark?_of_mem hplaced hfault hd
      exact ⟨t, ht, hline⟩
  case errors =>
    intro t ht
    rw [exists_error_iff hplaced hfault ht, Statement.lacksCode, Bool.and_eq_true,
      Mnemonic.isCoded_iff, Option.isNone_iff_eq_none]
  case unknown => exact fun t ht name => mem_unknownMnemonic_iff hplaced hfault ht
  case wide => exact fun t ht number => mem_operandTooWide_iff hplaced hfault ht
  case warned =>
    intro d hd hwarning
    obtain ⟨t, -, -, hremark⟩ := exists_remark?_of_mem hplaced hfault hd
    rcases Statement.remark?_cases hremark with ⟨_, _, _, hd⟩ | ⟨_, _, _, hd⟩
      | ⟨number, _, _, hd⟩
    · rw [Diagnostic.severity, hd] at hwarning
      cases hwarning
    · rw [Diagnostic.severity, hd] at hwarning
      cases hwarning
    · exact ⟨number, hd⟩
  case missingStart =>
    rw [List.filter_append, FirstPass.filter_reportsMissingStart_run hplaced,
      filter_reportsMissingStart_run hplaced hfault, List.append_nil]
    congr 2
    rw [← huncoded, List.head?_map, Option.any_map, huncoded]
    rfl
  case unplaced =>
    intro t ht
    obtain ⟨k, hk⟩ := List.mem_iff_getElem?.mp ht
    exact (placed_of_getElem? hplaced hfault hk).address_eq_none_iff

/-- A program about which there is much to say. -/
def faultyLines : List String :=
  ["LDA X", "A RESW one", "A RESB two", "MOVE A", "WORD 1234567", "LDA A,X", "STA B"]

/-- Line 1 is reported by both passes, line 3 twice by the first. -/
theorem reports_accounted_faulty :
    ∃ placed, (FirstPass.run faultyLines).result = .ok placed ∧ (run placed).fault = none
      ∧ Event.diagnostics ((FirstPass.run faultyLines).events ++ (run placed).events)
        = [⟨1, .missingStart⟩, ⟨2, .badReserveCount "RESW" "one"⟩, ⟨3, .duplicateLabel "A" 2⟩,
           ⟨3, .badReserveCount "RESB" "two"⟩]
          ++ [⟨1, .unresolvedSymbol "LDA" "X"⟩, ⟨4, .unknownMnemonic "MOVE"⟩,
           ⟨5, .operandTooWide "1234567"⟩, ⟨7, .unresolvedSymbol "STA" "B"⟩]
      ∧ Accounted (run placed).statements
          [⟨1, .missingStart⟩, ⟨2, .badReserveCount "RESW" "one"⟩, ⟨3, .duplicateLabel "A" 2⟩,
           ⟨3, .badReserveCount "RESB" "two"⟩]
          [⟨1, .unresolvedSymbol "LDA" "X"⟩, ⟨4, .unknownMnemonic "MOVE"⟩,
           ⟨5, .operandTooWide "1234567"⟩, ⟨7, .unresolvedSymbol "STA" "B"⟩] := by
  have hseen : (FirstPass.run faultyLines).result.toOption.map (fun placed =>
      ((run placed).fault, (run placed).diagnostics))
      = some (none, [⟨1, .unresolvedSymbol "LDA" "X"⟩, ⟨4, .unknownMnemonic "MOVE"⟩,
          ⟨5, .operandTooWide "1234567"⟩, ⟨7, .unresolvedSymbol "STA" "B"⟩]) := by
    decide +kernel
  have hfirst : (FirstPass.run faultyLines).diagnostics
      = [⟨1, .missingStart⟩, ⟨2, .badReserveCount "RESW" "one"⟩, ⟨3, .duplicateLabel "A" 2⟩,
          ⟨3, .badReserveCount "RESB" "two"⟩] := by
    decide +kernel
  obtain ⟨placed, hok, hseen⟩ := Option.map_eq_some_iff.mp hseen
  obtain ⟨hfault, hsecond⟩ := Prod.mk.inj hseen
  obtain ⟨hboth, haccounted⟩ := reports_accounted (eq_ok_of_toOption hok) hfault
  rw [hfirst, hsecond] at hboth haccounted
  exact ⟨placed, eq_ok_of_toOption hok, hfault, hboth, haccounted⟩

end SecondPass

end TwoPass
