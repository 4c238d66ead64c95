import Mathlib.Data.List.Induction
import TwoPass.Proofs.Symbols

/-!
# What a symbol table stands for

A symbol table is a list and an index that grow together, one label at a time, and that
pass over a statement without a label and over a label they have. What it stands for is
simpler: each label that occurs, with the statement that has it first, in the order in
which the labels occur. `SymbolTable.StandsFor` says so about a table and a sequence of
statements, of which only some may count.

The two sides meet in `SymbolTable.Coupled`. Along the index every name has one position,
so no name stands in the list twice; along the list a name is found at its first
occurrence, and a later statement of the same label is never looked at, whether the first
one has an address or not.
-/

namespace TwoPass

/-! ## Statements that define a label -/

/-- The directives whose labels name data. -/
def dataDirectives : List Mnemonic :=
  [.directive .reserveWords, .directive .reserveBytes, .directive .word]

theorem Mnemonic.isStorage_iff {mnemonic : Mnemonic} :
    mnemonic.isStorage = true ↔ mnemonic ∈ dataDirectives := by
  cases mnemonic with
  | machine op => simp [isStorage, dataDirectives]
  | directive d => cases d <;> simp [isStorage, dataDirectives]
  | unknown name => simp [isStorage, dataDirectives]

/-- **A statement is the first to define a label** among those statements that count. -/
def DefinesFirst (counts : Statement → Prop) (statements : List Statement) (label : String)
    (s : Statement) : Prop :=
  ∃ before behind, statements = before ++ s :: behind ∧ counts s ∧ s.label = some label
    ∧ ∀ r ∈ before, counts r → r.label ≠ some label

/-- The first definition of a label is the one that a search comes upon. -/
theorem find?_filter_eq_some_iff {counts : Statement → Bool} {statements : List Statement}
    {label : String} {s : Statement} :
    (statements.filter counts).find? (·.label = some label) = some s
      ↔ DefinesFirst (counts · = true) statements label s := by
  rw [List.find?_filter, List.find?_eq_some_iff_append]
  constructor
  · rintro ⟨hs, before, behind, rfl, hbefore⟩
    obtain ⟨hcounts, hlabel⟩ : counts s = true ∧ s.label = some label := by simpa using hs
    refine ⟨before, behind, rfl, hcounts, hlabel, fun r hr hrcounts hrlabel => ?_⟩
    have hpassed := hbefore r hr
    simp [hrcounts, hrlabel] at hpassed
  · rintro ⟨before, behind, rfl, hcounts, hlabel, hbefore⟩
    refine ⟨by simp [hcounts, hlabel], before, behind, rfl, fun r hr => ?_⟩
    cases hrcounts : counts r with
    | false => rfl
    | true => simpa using hbefore r hr hrcounts

namespace SymbolTable

/-! ## The list of symbols -/

/-- The names in the table, in order. -/
def names (t : SymbolTable) : List String := t.symbols.map Symbol.name

/-- A name stands in the table if the index has it. -/
theorem Coupled.isSome_position?_iff {t : SymbolTable} (h : t.Coupled) {name : String} :
    (t.position? name).isSome = true ↔ name ∈ t.names := by
  rw [h.position?_eq_findIdx?, List.findIdx?_isSome, List.any_eq_true, names, List.mem_map]
  simp

/-- **No name stands in the table twice**: the index gives it one position. -/
theorem Coupled.nodup_names {t : SymbolTable} (h : t.Coupled) : t.names.Nodup := by
  rw [names, List.Nodup, List.pairwise_map, List.pairwise_iff_getElem]
  intro i j hi hj hij hsame
  have hfirst := (h _ i).mpr ⟨_, List.getElem?_eq_getElem hi, hsame⟩
  have hsecond := (h _ j).mpr ⟨_, List.getElem?_eq_getElem hj, rfl⟩
  rw [hfirst, Option.some_inj] at hsecond
  exact absurd hsecond (Nat.ne_of_lt hij)

/-- The name of a symbol that is put in goes behind the others, if it is new. -/
theorem Coupled.names_insert {t : SymbolTable} (h : t.Coupled) (symbol : Symbol) :
    (t.insert symbol).names
      = t.names ++ if symbol.name ∈ t.names then [] else [symbol.name] := by
  unfold SymbolTable.insert
  by_cases hknown : symbol.name ∈ t.names
  · rw [if_pos (h.isSome_position?_iff.mpr hknown), if_pos hknown, List.append_nil]
  · rw [if_neg (mt h.isSome_position?_iff.mp hknown), if_neg hknown]
    exact List.map_append

/-- One label more occurs first at the end, unless it occurs before. -/
theorem eraseDups_concat (labels : List String) (label : String) :
    (labels ++ [label]).eraseDups
      = labels.eraseDups ++ if label ∈ labels then [] else [label] := by
  rw [List.eraseDups_append, List.removeAll]
  by_cases hknown : label ∈ labels
  · simp [hknown]
  · simp [hknown, List.eraseDups_cons]

/-- **The names are the labels in the order of their first occurrence.** -/
theorem names_all (statements : List Statement) :
    (all statements).names = (statements.filterMap Statement.label).eraseDups := by
  induction statements using List.reverseRecOn with
  | nil => rfl
  | append_singleton before s ih =>
    rw [all_concat, List.filterMap_append, Statement.symbol?]
    cases hlabel : s.label with
    | none =>
      rw [List.filterMap_cons_none hlabel, List.filterMap_nil, List.append_nil]
      exact ih
    | some label =>
      rw [List.filterMap_cons_some hlabel, List.filterMap_nil, eraseDups_concat, Option.map_some,
        Option.elim_some, (coupled_all before).names_insert, ih]
      simp only [List.mem_eraseDups]

/-! ## What a table stands for -/

/-- **What a table stands for**, given which of some statements count. -/
structure StandsFor (t : SymbolTable) (counts : Statement → Bool) (statements : List Statement) :
    Prop where
  /-- No name stands in the table twice. -/
  distinct : (t.symbols.map Symbol.name).Nodup
  /-- The index has exactly the names in the table, each with the position that holds
  it. -/
  index : ∀ name i, t.index.lookup name = some i
    ↔ ∃ symbol, t.symbols[i]? = some symbol ∧ symbol.name = name
  /-- The names are the labels in the order of their first occurrence. -/
  order : t.symbols.map Symbol.name
    = ((statements.filter counts).filterMap Statement.label).eraseDups
  /-- A name has the symbol of the statement that defines it first. -/
  found : ∀ name symbol, t.get? name = some symbol
    ↔ ∃ s, DefinesFirst (counts · = true) statements name s
      ∧ symbol = { name, address := s.address, line := s.line }
  /-- A name has no symbol if no statement has it for its label. -/
  absent : ∀ name, t.get? name = none
    ↔ ∀ s ∈ statements, counts s = true → s.label ≠ some name
  /-- A name has the address of the statement that defines it first, or none if that one
  has none. -/
  address : ∀ name s, DefinesFirst (counts · = true) statements name s →
    t.address? name = s.address

/-- **A table that is made of the statements that count stands for them.** -/
theorem standsFor_all (counts : Statement → Bool) (statements : List Statement) :
    (all (statements.filter counts)).StandsFor counts statements where
  distinct := (coupled_all _).nodup_names
  index := coupled_all _
  order := names_all _
  found := by
    intro name symbol
    rw [get?_all, Option.bind_eq_some_iff]
    refine exists_congr fun s => ?_
    rw [find?_filter_eq_some_iff]
    refine and_congr_right fun hfirst => ?_
    obtain ⟨_, _, _, _, hlabel, _⟩ := hfirst
    rw [Statement.symbol?, hlabel, Option.map_some, Option.some_inj, eq_comm]
  absent := by
    intro name
    rw [get?_all]
    cases hfind : (statements.filter counts).find? (·.label = some name) with
    | none =>
      refine iff_of_true rfl fun s hs hcounts => ?_
      simpa using List.find?_eq_none.mp hfind s (List.mem_filter.mpr ⟨hs, hcounts⟩)
    | some s =>
      obtain ⟨hs, hcounts⟩ := List.mem_filter.mp (List.mem_of_find?_eq_some hfind)
      have hlabel := Statement.label_of_find? hfind
      refine iff_of_false ?_ fun hnone => hnone s hs hcounts hlabel
      rw [Option.bind_some, Statement.symbol?, hlabel]
      exact Option.some_ne_none _
  address := by
    intro name s hs
    rw [address?_all, find?_filter_eq_some_iff.mpr hs, Option.bind_some]

/-- **Both symbol tables stand for first definitions.** Take any statements, in any order and
with any labels, addresses and lines. In the table of all labels, and in the table of data
for the statements that are `RESW`, `RESB` or `WORD`: the names are pairwise distinct and in
the order in which the labels occur first; the index leads from exactly these names to the
positions that hold them, so that looking up a name never leaves the table; and a name has
the address and the line of the first statement that has it for its label, and nothing
otherwise. If that statement has no address then neither has the name, whatever a later
statement has. -/
theorem tables_stand_for_first_definitions (statements : List Statement) :
    (storage statements).StandsFor (fun s => s.mnemonic ∈ dataDirectives) statements
      ∧ (all statements).StandsFor (fun _ => true) statements := by
  constructor
  · have hcounts : (fun s : Statement => s.mnemonic.isStorage)
        = fun s : Statement => decide (s.mnemonic ∈ dataDirectives) := by
      funext s
      rw [Bool.eq_iff_iff, Mnemonic.isStorage_iff, decide_eq_true_eq]
    rw [storage, hcounts]
    exact standsFor_all _ statements
  · have hevery := standsFor_all (fun _ => true) statements
    rwa [List.filter_eq_self.mpr fun _ _ => rfl] at hevery

/-- The first definition has no address, and no later one stands in for it. It names no data
either, so the table of data passes over it. -/
example :
    let statements : List Statement :=
      [{ line := 1, label := some "X", mnemonic := .unknown "NOP", operand := none },
       { line := 2, label := some "X", mnemonic := .directive .word, operand := none
         address := some "0" },
       { line := 3, label := some "X", mnemonic := .directive .word, operand := none
         address := some "3" }]
    (all statements).address? "X" = none ∧ (storage statements).address? "X" = some "0" := by
  decide

end SymbolTable

end TwoPass
