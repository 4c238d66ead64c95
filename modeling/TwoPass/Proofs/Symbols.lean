import TwoPass.SymbolTable

/-!
# What a symbol table says

A table is made by putting in one symbol after the other and leaving out those
whose name is there already. Names are looked up in its index, so what a table says
rests on the index and the symbols being in step (`SymbolTable.Coupled`): every symbol
that is put in keeps them so.

What a table says about a name can then be told without following how it was made: it
is the symbol of the first statement that has the name for its label
(`SymbolTable.get?_all`). An address that a table gives is therefore the address of a
statement, and if the first statement of that label has none, no later one is asked.
-/

namespace TwoPass

/-- The symbol of a statement is made of its label, its address and its line. -/
theorem Statement.symbol?_eq_some_iff {s : Statement} {symbol : Symbol} :
    s.symbol? = some symbol
      ↔ s.label = some symbol.name ∧ s.address = symbol.address ∧ s.line = symbol.line := by
  obtain ⟨name, address, line⟩ := symbol
  unfold symbol?
  cases s.label with
  | none => simp
  | some label => simp

/-- A statement that is searched for by its label has it. -/
theorem Statement.label_of_find? {statements : List Statement} {name : String} {s : Statement}
    (h : statements.find? (·.label = some name) = some s) : s.label = some name := by
  simpa using List.find?_some h

namespace SymbolTable

/-! ## The index -/

/-- **A table in step with its index**: the index has a name at a position exactly if
the symbol at that position has the name. -/
def Coupled (t : SymbolTable) : Prop :=
  ∀ name i, t.position? name = some i ↔ ∃ symbol, t.symbols[i]? = some symbol ∧ symbol.name = name

theorem coupled_empty : empty.Coupled := by
  intro name i
  exact ⟨fun h => (nomatch h), fun ⟨_, h, _⟩ => nomatch h⟩

/-- A name that the index does not know has no symbol. -/
theorem Coupled.ne_of_position?_eq_none {t : SymbolTable} (h : t.Coupled) {name : String}
    (hnone : t.position? name = none) : ∀ symbol ∈ t.symbols, symbol.name ≠ name := by
  intro symbol hsymbol hname
  obtain ⟨i, hi⟩ := List.mem_iff_getElem?.mp hsymbol
  have hsome := (h name i).mpr ⟨symbol, hi, hname⟩
  rw [hnone] at hsome
  cases hsome

/-- **Putting in a symbol keeps a table in step.** -/
theorem Coupled.insert {t : SymbolTable} (h : t.Coupled) (symbol : Symbol) :
    (t.insert symbol).Coupled := by
  unfold SymbolTable.insert
  split
  · exact h
  · next hnew =>
    have hnone : t.position? symbol.name = none := by simpa using hnew
    intro name i
    show List.lookup name ((symbol.name, t.size) :: t.index) = some i
      ↔ ∃ found, (t.symbols ++ [symbol])[i]? = some found ∧ found.name = name
    by_cases hname : name = symbol.name
    · -- the new name stands behind all others, and at no other place
      subst hname
      rw [List.lookup_cons_self, Option.some_inj]
      constructor
      · rintro rfl
        exact ⟨symbol, List.getElem?_concat_length, rfl⟩
      · rintro ⟨found, hfound, hsame⟩
        rw [List.getElem?_append] at hfound
        split at hfound
        · exact absurd hsame
            (h.ne_of_position?_eq_none hnone found (List.mem_of_getElem? hfound))
        · have hlast := (List.getElem?_eq_some_iff.mp hfound).1
          rw [List.length_singleton] at hlast
          rw [size]
          omega
    · simp only [List.lookup_cons, beq_false_of_ne hname]
      refine (h name i).trans (exists_congr fun found => and_congr_left fun hfound => ?_)
      rw [List.getElem?_append]
      split
      · exact Iff.rfl
      · next hge =>
        rw [List.getElem?_eq_none (Nat.le_of_not_lt hge)]
        refine ⟨fun hno => (nomatch hno), fun hlast => ?_⟩
        rw [List.mem_singleton.mp (List.mem_of_getElem? hlast)] at hfound
        exact absurd hfound.symm hname

theorem Coupled.foldl_insert {t : SymbolTable} (h : t.Coupled) (symbols : List Symbol) :
    (symbols.foldl SymbolTable.insert t).Coupled := by
  induction symbols generalizing t with
  | nil => exact h
  | cons symbol more ih => exact ih (h.insert symbol)

/-- **Every table that is made of statements is in step.** -/
theorem coupled_all (statements : List Statement) : (all statements).Coupled :=
  coupled_empty.foldl_insert _

/-- The index says where a name stands first, since it stands there only. -/
theorem Coupled.position?_eq_findIdx? {t : SymbolTable} (h : t.Coupled) (name : String) :
    t.position? name = t.symbols.findIdx? (·.name = name) := by
  cases hfirst : t.symbols.findIdx? (·.name = name) with
  | some i =>
    obtain ⟨hlt, hname, -⟩ := List.findIdx?_eq_some_iff_getElem.mp hfirst
    exact (h name i).mpr ⟨_, List.getElem?_eq_getElem hlt, by simpa using hname⟩
  | none =>
    refine Option.eq_none_iff_forall_ne_some.mpr fun i hi => ?_
    obtain ⟨symbol, hsymbol, hname⟩ := (h name i).mp hi
    have hne := List.findIdx?_eq_none_iff.mp hfirst symbol (List.mem_of_getElem? hsymbol)
    simp [hname] at hne

/-! ## Names and their symbols -/

/-- A name is looked up as if by going through the symbols in order. -/
theorem Coupled.get?_eq_find? {t : SymbolTable} (h : t.Coupled) (name : String) :
    t.get? name = t.symbols.find? (·.name = name) := by
  rw [get?, h.position?_eq_findIdx?, List.find?_eq_bind_findIdx?_getElem?]

/-- A name has a symbol if the index knows it. -/
theorem Coupled.isSome_position? {t : SymbolTable} (h : t.Coupled) (name : String) :
    (t.position? name).isSome = (t.get? name).isSome := by
  rw [h.get?_eq_find?, h.position?_eq_findIdx?, List.findIdx?_isSome, List.isSome_find?]

/-- A symbol that is put in is found under its name, unless the name had one. -/
theorem Coupled.get?_insert {t : SymbolTable} (h : t.Coupled) (symbol : Symbol) (name : String) :
    (t.insert symbol).get? name
      = (t.get? name).or (if symbol.name = name then some symbol else none) := by
  rw [(h.insert symbol).get?_eq_find?, h.get?_eq_find?, SymbolTable.insert, h.isSome_position?]
  split
  · next hknown =>
    rw [h.get?_eq_find?] at hknown
    by_cases hname : symbol.name = name
    · subst hname
      obtain ⟨found, hfound⟩ := Option.isSome_iff_exists.mp hknown
      rw [hfound, Option.some_or]
    · rw [if_neg hname, Option.or_none]
  · rw [List.find?_append, List.find?_singleton]
    simp only [decide_eq_true_eq]

theorem Coupled.get?_foldl_insert {t : SymbolTable} (h : t.Coupled) (symbols : List Symbol)
    (name : String) :
    (symbols.foldl SymbolTable.insert t).get? name
      = (t.get? name).or (symbols.find? (·.name = name)) := by
  induction symbols generalizing t with
  | nil => simp
  | cons symbol more ih =>
    rw [List.foldl_cons, ih (h.insert symbol), h.get?_insert, Option.or_assoc, List.find?_cons]
    by_cases hname : symbol.name = name <;> simp [hname]

/-- A table grows by every symbol whose name it does not have. -/
theorem Coupled.size_insert {t : SymbolTable} (h : t.Coupled) (symbol : Symbol) :
    (t.insert symbol).size = t.size + if (t.get? symbol.name).isSome then 0 else 1 := by
  rw [SymbolTable.insert, h.isSome_position?]
  split
  · rfl
  · exact List.length_append

/-- One statement more is one symbol more to put in, if it has a label. -/
theorem all_concat (statements : List Statement) (s : Statement) :
    all (statements ++ [s]) = s.symbol?.elim (all statements) (all statements).insert := by
  rw [all, List.filterMap_append, List.foldl_append, List.filterMap_cons, List.filterMap_nil]
  cases s.symbol? <;> rfl

/-- **The first statement with a label defines it.** -/
theorem get?_all (statements : List Statement) (name : String) :
    (all statements).get? name
      = (statements.find? (·.label = some name)).bind Statement.symbol? := by
  have hempty : empty.get? name = none := rfl
  rw [all, coupled_empty.get?_foldl_insert, hempty, Option.none_or, List.find?_filterMap]
  congr 1
  refine congrArg (List.find? · statements) (funext fun s => ?_)
  cases hlabel : s.label with
  | none => simp [Statement.symbol?, hlabel]
  | some label => simp [Statement.symbol?, hlabel]

/-- An address that a table gives is that of the first statement with the
label. -/
theorem address?_all (statements : List Statement) (name : String) :
    (all statements).address? name
      = (statements.find? (·.label = some name)).bind Statement.address := by
  rw [address?, get?_all, Option.bind_assoc]
  cases hfind : statements.find? (·.label = some name) with
  | none => rfl
  | some s =>
    rw [Option.bind_some, Option.bind_some, Statement.symbol?, Statement.label_of_find? hfind]
    rfl

theorem address?_storage (statements : List Statement) (name : String) :
    (storage statements).address? name
      = ((statements.filter (·.mnemonic.isStorage)).find? (·.label = some name)).bind
          Statement.address :=
  address?_all _ name

/-- Both tables give addresses of statements only. -/
theorem exists_mem_of_address? {statements : List Statement} {name address : String}
    (h : (all statements).address? name = some address
      ∨ (storage statements).address? name = some address) :
    ∃ s ∈ statements, s.address = some address := by
  rw [address?_all, address?_storage, Option.bind_eq_some_iff, Option.bind_eq_some_iff] at h
  rcases h with ⟨s, hs, ha⟩ | ⟨s, hs, ha⟩
  · exact ⟨s, List.mem_of_find?_eq_some hs, ha⟩
  · exact ⟨s, (List.mem_filter.mp (List.mem_of_find?_eq_some hs)).1, ha⟩

end SymbolTable

end TwoPass
