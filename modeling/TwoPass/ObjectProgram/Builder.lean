import TwoPass.ObjectProgram.Basic
import TwoPass.Settings
import TwoPass.Statement

/-!
# Building object programs

The records are made of the statements in the order of their lines, whatever
order they come in.

The header reaches from the `START` to the last `END`; where there is none,
the first or the last statement with an address stands in. The text records
hold the codes of all statements that have an address and a code, as many to a
record as the settings allow. The program is entered at the first statement
behind the `START` that has an address.
-/

namespace TwoPass

/-- The digits of an address in a record. -/
def addressDigits : Nat := 6

/-- The items in groups of `size`, and what is left over in a last group that
is smaller. A group is its first item and the others. A size of zero counts as
one. -/
def groups {α : Type} (size : Nat) (items : List α) : List (α × List α) :=
  let size := max 1 size
  (List.range ((items.length + size - 1) / size)).filterMap fun i =>
    match (items.drop (i * size)).take size with
    | [] => none
    | first :: others => some (first, others)

namespace Statement

/-- Text of a statement with zeros in front, six digits in all. -/
def padded (s : Statement) (text : String) : Except Fault String :=
  (Hex.padLeft text addressDigits).mapError (.hex s.line s.source ·)

end Statement

/-- A statement that contributes to the text records. -/
structure Cell where
  /-- The statement. -/
  statement : Statement
  /-- Its address. -/
  address : String
  /-- Its object code. -/
  code : String
deriving DecidableEq, Repr

/-- The cell of a statement: `START` and `END` have none, and neither has a
statement without address or code. -/
def Statement.cell? (s : Statement) : Option Cell :=
  if s.mnemonic.isControl then none
  else
    match s.address, s.code with
    | some address, some code =>
      if code = "" then none else some { statement := s, address, code }
    | _, _ => none

/-- The text record of a group of cells. -/
def TextRecord.ofCells (first : Cell) (others : List Cell) : Except Fault TextRecord := do
  let codes ← (first :: others).mapM fun cell => cell.statement.padded cell.code
  let address ← first.statement.padded first.address
  return { address, codes }

namespace ObjectProgram

/-- The statements in the order of their lines; those on one line keep their
order. -/
def ordered (statements : List Statement) : List Statement :=
  statements.mergeSort fun a b => a.line ≤ b.line

/-- The statement a program begins at. -/
def first? (statements : List Statement) : Option Statement :=
  (statements.find? Statement.isStart).or (statements.find? (·.address.isSome))

/-- The statement a program ends at. -/
def last? (statements : List Statement) : Option Statement :=
  (statements.reverse.find? Statement.isEnd).or
    (statements.reverse.find? (·.address.isSome))

/-- The name of a program that begins at a given statement. -/
def programName (settings : Settings) (first : Statement) : String :=
  if first.isStart then first.label.getD settings.programName
  else settings.programName

/-- The header of statements in order. -/
def buildHeader (settings : Settings) (statements : List Statement) :
    Except Fault Header :=
  match first? statements, last? statements with
  | some first, some last =>
    match first.address, last.address with
    | some start, some stop => do
      let length ← (Hex.sub stop start).mapError (.hex last.line last.source ·)
      return {
        name := programName settings first
        start := ← first.padded start
        length := ← last.padded length }
    | _, _ => .error .missingAddress
  | _, _ => .error .missingAddress

/-- The text records of statements in order. -/
def buildText (settings : Settings) (statements : List Statement) :
    Except Fault (List TextRecord) :=
  (groups settings.recordCapacity (statements.filterMap Statement.cell?)).mapM
    fun (first, others) => TextRecord.ofCells first others

/-- The address at which statements in order are entered. -/
def buildEntry (statements : List Statement) : Except Fault String :=
  let entered := (statements.filter (!·.isStart)).findSome? fun s =>
    s.address.map fun address => (s, address)
  match entered with
  | some (s, address) => s.padded address
  | none => .error .missingAddress

/-- The object program of statements in order. -/
def buildInOrder (settings : Settings) (statements : List Statement) :
    Except Fault ObjectProgram :=
  if statements.isEmpty then .error .emptyProgram
  else if statements.all (·.address.isNone) then .error .missingAddress
  else do
    let header ← buildHeader settings statements
    let text ← buildText settings statements
    let entry ← buildEntry statements
    return { header, text, entry }

/-- The object program of some statements. -/
def build (settings : Settings) (statements : List Statement) :
    Except Fault ObjectProgram :=
  buildInOrder settings (ordered statements)

end ObjectProgram

end TwoPass
