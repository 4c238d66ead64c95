import TwoPass.Statement

/-!
# Symbol tables

A symbol table says where the labels of a program lie. Two tables are made of
every program: `SymbolTable.storage` holds the labels of data, which indexed
operands refer to, and `SymbolTable.all` holds every label, which direct
operands refer to. In both the first definition of a label is the one that
counts, also when it has no address and a later one does.

A table keeps its symbols in the order in which they were defined, and beside them
an index that says where among them a name stands. A name is looked up in the
index, so the two have to be kept in step: they grow together, and a name that the
index knows already changes neither.
-/

namespace TwoPass

/-- A label with a definition. -/
structure Symbol where
  /-- The label. -/
  name : String
  /-- The address of the statement that defines it, if it has one. -/
  address : Option String
  /-- The line of that statement. -/
  line : Nat
deriving DecidableEq, Repr

/-- The symbol a statement defines. -/
def Statement.symbol? (s : Statement) : Option Symbol :=
  s.label.map fun name => { name, address := s.address, line := s.line }

/-- Symbols in the order of their definition, and where their names stand. -/
structure SymbolTable where
  /-- The symbols. -/
  symbols : List Symbol
  /-- The position of each name among them. -/
  index : List (String × Nat)
deriving DecidableEq, Repr

namespace SymbolTable

/-- The table without symbols. -/
def empty : SymbolTable := ⟨[], []⟩

/-- Where a name stands in the table. -/
def position? (t : SymbolTable) (name : String) : Option Nat := t.index.lookup name

/-- The symbol of a name. -/
def get? (t : SymbolTable) (name : String) : Option Symbol :=
  (t.position? name).bind fun i => t.symbols[i]?

/-- The address of a name, if it is defined and its definition has one. -/
def address? (t : SymbolTable) (name : String) : Option String :=
  (t.get? name).bind (·.address)

/-- The number of symbols. -/
def size (t : SymbolTable) : Nat := t.symbols.length

/-- A table with one more symbol, unless the name has one already. -/
def insert (t : SymbolTable) (symbol : Symbol) : SymbolTable :=
  if (t.position? symbol.name).isSome then t
  else ⟨t.symbols ++ [symbol], (symbol.name, t.size) :: t.index⟩

/-- The labels that some statements define. -/
def all (statements : List Statement) : SymbolTable :=
  (statements.filterMap Statement.symbol?).foldl insert empty

/-- The labels that some statements define as names of data. -/
def storage (statements : List Statement) : SymbolTable :=
  all (statements.filter (·.mnemonic.isStorage))

end SymbolTable

end TwoPass
