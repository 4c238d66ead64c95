import TwoPass.Hex.Basic

/-!
# Faults

A fault ends an assembly. Most faults belong to a source line and quote it;
the last three belong to the program as a whole.
-/

namespace TwoPass

/-- The causes that end an assembly. -/
inductive Fault where
  /-- A line has no field, or more than three. -/
  | fieldCount (line : Nat) (content : String) (found : Nat)
  /-- A line holds hexadecimal text that cannot be used. -/
  | hex (line : Nat) (content : String) (cause : HexFault)
  /-- A line is the second `START`. -/
  | duplicateStart (line : Nat) (content : String) (first : Nat)
  /-- A line would lie above the highest address. -/
  | addressOverflow (line : Nat) (content address : String)
  /-- There is nothing to make an object program of. -/
  | emptyProgram
  /-- A record needs an address that no statement has. -/
  | missingAddress
  /-- Errors were reported, and the settings are strict. -/
  | unresolved (count : Nat)
deriving DecidableEq, Repr

namespace Fault

/-- The wording of a fault. -/
def message : Fault → String
  | .fieldCount line content found =>
    s!"line {line}: expected 1 to 3 fields (label, mnemonic, operand), found {found}: `{content}`"
  | .hex line content cause => s!"line {line}: `{content}`: {cause.message}"
  | .duplicateStart line content first =>
    s!"line {line}: second START `{content}` (first START on line {first})"
  | .addressOverflow line content address =>
    s!"line {line}: `{content}`: address {address} exceeds FFFFFF"
  | .emptyProgram => "cannot build an object program from an empty instruction list"
  | .missingAddress =>
    "cannot build an object program: no instruction carries a memory address"
  | .unresolved count => s!"{count} instruction(s) could not be resolved"

/-- The line a fault belongs to. -/
def line? : Fault → Option Nat
  | .fieldCount line _ _ | .hex line _ _ | .duplicateStart line _ _
  | .addressOverflow line _ _ => some line
  | .emptyProgram | .missingAddress | .unresolved _ => none

/-- The line a fault quotes. -/
def content? : Fault → Option String
  | .fieldCount _ content _ | .hex _ content _ | .duplicateStart _ content _
  | .addressOverflow _ content _ => some content
  | .emptyProgram | .missingAddress | .unresolved _ => none

/-- The fault of hexadecimal arithmetic underneath. -/
def cause? : Fault → Option HexFault
  | .hex _ _ cause => some cause
  | _ => none

end Fault

end TwoPass
