import TwoPass.Proofs.References

/-!
# Where the labels of a program are defined

The second pass looks labels up in two tables. A label with an index register is looked
for among the data of the program, any other label among all statements, and in both
tables the first definition is the one that counts. `Statement.definition?` puts the two
together: it is what the tables of a program say about the label that a statement refers
to. Apart from it a statement is encoded out of itself, so that one and the same
statement has one code in all programs in which it refers to the same definition
(`Statement.encode_of_definition?_eq`).

A definition is found by going through the statements once
(`Statement.definition?_eq_find?`), whichever table it is in. Hence order counts only
where a label is defined twice. If no label is, the statements of a program can stand in
any order, with the definitions before the references or behind them, and the second pass
makes the same of each of them (`SecondPass.any_order_same_codes`).
-/

namespace TwoPass

/-! ## Definitions -/

namespace Statement

/-- **What a statement of a program refers to**: the symbol of the label in its operand,
which is one of data if there is an index register. -/
def definition? (statements : List Statement) (s : Statement) : Option Symbol :=
  match s.operand with
  | none => none
  | some (.indexed label _) => (SymbolTable.storage statements).get? label
  | some (.direct label) | some (.literal label) => (SymbolTable.all statements).get? label

/-- Whether the statement `t` defines the label in the operand of `s`. -/
def definedBy (s t : Statement) : Bool :=
  match s.operand with
  | none => false
  | some (.indexed label _) => t.mnemonic.isStorage ∧ t.label = some label
  | some (.direct label) | some (.literal label) => t.label = some label

/-- **A statement refers to the first statement that defines its label.** -/
theorem definition?_eq_find? (statements : List Statement) (s : Statement) :
    s.definition? statements = (statements.find? s.definedBy).bind symbol? := by
  show _ = (statements.find? fun t => s.definedBy t).bind symbol?
  unfold definition? definedBy
  cases s.operand with
  | none =>
    rw [List.find?_eq_none.mpr fun t _ => Bool.false_ne_true]
    rfl
  | some operand =>
    cases operand with
    | literal label => exact SymbolTable.get?_all statements label
    | direct label => exact SymbolTable.get?_all statements label
    | indexed label index =>
      show (SymbolTable.all (statements.filter (·.mnemonic.isStorage))).get? label = _
      rw [SymbolTable.get?_all, List.find?_filter]
      simp only [decide_eq_true_eq]

/-- The statements that define what one statement refers to have one label. -/
theorem label_of_definedBy {s t : Statement} (h : s.definedBy t = true) :
    ∃ label, t.label = some label ∧ ∀ u, s.definedBy u = true → u.label = some label := by
  unfold definedBy at h ⊢
  cases hop : s.operand with
  | none => simp [hop] at h
  | some operand =>
    cases operand with
    | literal label => exact ⟨label, by simpa [hop] using h, fun u hu => by simpa [hop] using hu⟩
    | direct label => exact ⟨label, by simpa [hop] using h, fun u hu => by simpa [hop] using hu⟩
    | indexed label index =>
      simp only [hop, decide_eq_true_eq] at h ⊢
      exact ⟨label, h.2, fun u hu => hu.2⟩

/-- **A statement is encoded by what it refers to.** -/
theorem encode_of_definition?_eq {statements others : List Statement} {s : Statement}
    (h : s.definition? others = s.definition? statements) :
    s.encode (SymbolTable.storage others) (SymbolTable.all others)
      = s.encode (SymbolTable.storage statements) (SymbolTable.all statements) := by
  have hreference (byte : String) :
      s.encodeReference (SymbolTable.storage others) (SymbolTable.all others) byte
        = s.encodeReference (SymbolTable.storage statements) (SymbolTable.all statements) byte := by
    unfold definition? at h
    unfold encodeReference SymbolTable.address?
    cases hop : s.operand with
    | none => rfl
    | some operand =>
      cases operand with
      | literal label =>
        simp only [hop] at h ⊢
        rw [h]
      | direct label =>
        simp only [hop] at h ⊢
        rw [h]
      | indexed label index =>
        simp only [hop] at h ⊢
        rw [h]
  unfold encode
  simp only [hreference]

/-- A statement with the code that it has in a program. -/
def codedIn (statements : List Statement) (s : Statement) : Statement :=
  s.recoded (SymbolTable.storage statements) (SymbolTable.all statements)

/-- **A statement has the same code wherever it refers to the same.** -/
theorem codedIn_of_definition?_eq {statements others : List Statement} {s : Statement}
    (h : s.definition? others = s.definition? statements) :
    s.codedIn others = s.codedIn statements := by
  show { s with code := _ } = { s with code := _ }
  rw [encode_of_definition?_eq h]

/-! ## Programs in another order -/

/-- **Where no label is defined twice, a statement refers to the same definition in every
order.** -/
theorem definition?_of_perm {statements others : List Statement}
    (hperm : statements.Perm others) (hunique : (statements.filterMap label).Nodup)
    (s : Statement) : s.definition? others = s.definition? statements := by
  rw [definition?_eq_find?, definition?_eq_find?]
  refine congrArg (Option.bind · symbol?) (find?_eq_of_perm hperm ?_)
  refine (List.pairwise_filterMap.mp hunique).imp fun {t u} hne ht hu => ?_
  obtain ⟨label, hlabel, hothers⟩ := label_of_definedBy ht
  exact hne label hlabel label (hothers u hu) rfl

end Statement

namespace SecondPass

variable {statements others : List Statement}

/-- The pass comes to its end exactly if every statement can be encoded. -/
theorem fault_run_eq_none_iff_encoded :
    (run statements).fault = none ↔ ∀ s ∈ statements, ∃ made,
      s.encode (SymbolTable.storage statements) (SymbolTable.all statements) = .ok made := by
  obtain ⟨done, rest, fault, hsplits⟩ :=
    exists_splits (SymbolTable.storage statements) (SymbolTable.all statements) statements
  rw [hsplits.run_eq rfl]
  obtain ⟨hparts, hdone, ⟨rfl, rfl⟩ | ⟨s, more, cause, rfl, herror, rfl⟩⟩ := hsplits
  · rw [List.append_nil] at hparts
    subst hparts
    exact ⟨fun _ => hdone, fun _ => rfl⟩
  · refine ⟨fun h => (nomatch h), fun h => ?_⟩
    have hmem : s ∈ statements := by
      rw [hparts]
      exact List.mem_append_right done List.mem_cons_self
    obtain ⟨made, hmade⟩ := h s hmem
    rw [herror] at hmade
    cases hmade

/-- A pass that comes to its end gives every statement its code. -/
theorem statements_of_finished (h : (run statements).fault = none) :
    (run statements).statements = statements.map (Statement.codedIn statements) := by
  have hencoded := fault_run_eq_none_iff_encoded.mp h
  show (runWith _ _ statements).statements = _
  have happend := runWith_append hencoded []
  rw [List.append_nil] at happend
  rw [happend]
  exact List.append_nil _

/-- **Where no label is defined twice, the order of the statements is of no account.** The
pass comes to its end for all orders or for none. If it does, then a statement gets the same
code wherever it stands, before the statements it refers to or behind them, and what is
reported is the same up to order. -/
theorem any_order_same_codes (hperm : statements.Perm others)
    (hunique : (statements.filterMap Statement.label).Nodup) :
    ((run others).fault = none ↔ (run statements).fault = none)
      ∧ ((run statements).fault = none →
          (∀ (i j : Nat) (s : Statement), statements[i]? = some s → others[j]? = some s →
            ∃ code, (run statements).statements[i]? = some { s with code }
              ∧ (run others).statements[j]? = some { s with code })
          ∧ (run others).diagnostics.Perm (run statements).diagnostics) := by
  have hsame (s : Statement) : s.definition? others = s.definition? statements :=
    Statement.definition?_of_perm hperm hunique s
  have hencode (s : Statement) := Statement.encode_of_definition?_eq (hsame s)
  have hends : (run others).fault = none ↔ (run statements).fault = none := by
    rw [fault_run_eq_none_iff_encoded, fault_run_eq_none_iff_encoded]
    simp only [hencode, hperm.mem_iff]
  refine ⟨hends, fun hfault => ⟨fun i j s hi hj => ?_, ?_⟩⟩
  · rw [statements_of_finished hfault, statements_of_finished (hends.mpr hfault),
      List.getElem?_map, List.getElem?_map, hi, hj]
    refine ⟨_, rfl, ?_⟩
    rw [Option.map_some, Statement.codedIn_of_definition?_eq (hsame s)]
    rfl
  · rw [diagnostics_of_finished hfault, diagnostics_of_finished (hends.mpr hfault)]
    simp only [Statement.findings, hencode]
    exact hperm.symm.flatMap_right _

/-- Two statements that refer to each other's labels, one that refers to data by an index
register, one that nobody knows, and one that refers to nothing. -/
def crossReferences : List Statement :=
  [{ line := 1, label := some "A", mnemonic := .machine (.memory "LDA" 0x00)
     operand := some (.direct "B"), address := some "0" },
   { line := 2, label := none, mnemonic := .machine (.memory "STA" 0x0C)
     operand := some (.indexed "C" "X"), address := some "3" },
   { line := 3, label := none, mnemonic := .unknown "MOVE", operand := none, address := some "6" },
   { line := 4, label := some "B", mnemonic := .machine (.memory "J" 0x3C)
     operand := some (.direct "A"), address := some "1009" },
   { line := 5, label := some "C", mnemonic := .directive .word
     operand := some (.literal "5"), address := some "100C", code := some "old" },
   { line := 6, label := none, mnemonic := .machine (.memory "LDA" 0x00)
     operand := some (.direct "D"), address := some "100F" }]

/-- Read backwards the program gets the same codes, also where a reference that went
forward now goes back. -/
theorem any_order_same_codes_backward :
    crossReferences.Perm crossReferences.reverse
      ∧ (crossReferences.filterMap Statement.label).Nodup
      ∧ (run crossReferences).fault = none ∧ (run crossReferences.reverse).fault = none
      ∧ (run crossReferences).statements.map Statement.code
        = [some "001009", some "0C900C", none, some "3C0000", some "000005", none]
      ∧ (run crossReferences).statements[1]? = (run crossReferences.reverse).statements[4]?
      ∧ (run crossReferences).diagnostics
        = [⟨3, .unknownMnemonic "MOVE"⟩, ⟨6, .unresolvedSymbol "LDA" "D"⟩]
      ∧ (run crossReferences.reverse).diagnostics.Perm (run crossReferences).diagnostics := by
  have hperm : crossReferences.Perm crossReferences.reverse := (List.reverse_perm _).symm
  have hunique : (crossReferences.filterMap Statement.label).Nodup := by decide
  have hfault : (run crossReferences).fault = none := by decide +kernel
  obtain ⟨hends, hsame⟩ := any_order_same_codes hperm hunique
  obtain ⟨hcodes, hreports⟩ := hsame hfault
  obtain ⟨code, hown, hother⟩ := hcodes 1 4 _ rfl rfl
  exact ⟨hperm, hunique, hfault, hends.mpr hfault, by decide +kernel, hown.trans hother.symm,
    by decide +kernel, hreports⟩

end SecondPass

end TwoPass
