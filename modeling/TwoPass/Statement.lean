import TwoPass.Fault
import TwoPass.Operation
import TwoPass.Text

/-!
# Statements

A source line holds one statement: a mnemonic, an operand if there are at
least two fields, and a label in front if there are three. The first pass
gives a statement its address and the second its object code; until then the
two are unset.

How an operand is read depends on the mnemonic alone. `START`, `WORD`, `RESW`
and `RESB` take a number, which is kept as text. Everything else takes a
label, with an index register behind the first comma if there is one.

`Statement.read` reads a line, and `Statement.source` writes the fields of a
statement with one space between them. A statement that was read is read again
from what is written of it.
-/

namespace TwoPass

/-- What a statement works on. -/
inductive Operand where
  /-- A number, as it is spelt. -/
  | literal (text : String)
  /-- The address of a label. -/
  | direct (label : String)
  /-- The address of a label, plus an index register. -/
  | indexed (label index : String)
deriving DecidableEq, Repr

/-- The operand as a field. -/
def Operand.render : Operand → String
  | .literal text => text
  | .direct label => label
  | .indexed label index => s!"{label},{index}"

/-- Whether the operand of a mnemonic is a number. -/
def Mnemonic.takesNumber : Mnemonic → Bool
  | .directive .finish => false
  | .directive _ => true
  | _ => false

/-- The operand a field stands for after a mnemonic. -/
def Mnemonic.operand (mnemonic : Mnemonic) (field : String) : Operand :=
  if mnemonic.takesNumber then .literal field
  else
    match Text.splitComma? field with
    | some (label, index) => .indexed label index
    | none => .direct field

/-- A statement of the program. -/
structure Statement where
  /-- The number of its source line, from one. -/
  line : Nat
  /-- The label it defines. -/
  label : Option String
  /-- Its mnemonic. -/
  mnemonic : Mnemonic
  /-- What it works on. -/
  operand : Option Operand
  /-- Where it lies in memory, in hexadecimal. -/
  address : Option String := none
  /-- Its object code, in hexadecimal. -/
  code : Option String := none
deriving DecidableEq, Repr

namespace Statement

/-- The operand as a field, empty if there is none. -/
def operandText (s : Statement) : String := (s.operand.map Operand.render).getD ""

/-- The fields the statement is written with. -/
def fields (s : Statement) : List String :=
  s.label.toList ++ s.mnemonic.name :: (s.operand.map Operand.render).toList

/-- The statement as a source line. -/
def source (s : Statement) : String := " ".intercalate s.fields

/-- The statement made of the fields of a line. -/
def ofFields (line : Nat) (label : Option String) (mnemonic : String)
    (operand : Option String) : Statement :=
  { line, label, mnemonic := Mnemonic.lookup mnemonic
    operand := operand.map (Mnemonic.lookup mnemonic).operand }

/-- The statement on a source line. -/
def read (line : Nat) (text : String) : Except Fault Statement :=
  match Text.fields text with
  | [mnemonic] => .ok (ofFields line none mnemonic none)
  | [mnemonic, operand] => .ok (ofFields line none mnemonic (some operand))
  | [label, mnemonic, operand] =>
    .ok (ofFields line (some label) mnemonic (some operand))
  | fields => .error (.fieldCount line text fields.length)

/-- Whether the statement is `START`. -/
def isStart (s : Statement) : Bool := s.mnemonic = .directive .start

/-- Whether the statement is `END`. -/
def isEnd (s : Statement) : Bool := s.mnemonic = .directive .finish

end Statement

end TwoPass
