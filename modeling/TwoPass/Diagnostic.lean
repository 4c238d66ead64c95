/-!
# Diagnostics

A diagnostic reports something about a line without ending the assembly. What
was found decides how severe it is: a warning where the assembler went on
with an assumption, an error where a line was left without object code.
-/

namespace TwoPass

/-- How grave a diagnostic is. -/
inductive Severity where
  /-- The line was assembled on an assumption. -/
  | warning
  /-- The line was left without object code. -/
  | error
deriving DecidableEq, Repr

/-- The name of a severity. -/
def Severity.name : Severity → String
  | .warning => "warning"
  | .error => "error"

/-- What a diagnostic can report. -/
inductive Finding where
  /-- The first line is no `START`. -/
  | missingStart
  /-- A `START` gives no address. -/
  | missingOrigin
  /-- A label was defined before. -/
  | duplicateLabel (label : String) (first : Nat)
  /-- The count of a reservation cannot be read. -/
  | badReserveCount (mnemonic operand : String)
  /-- The mnemonic is not in the table. -/
  | unknownMnemonic (mnemonic : String)
  /-- The operand names no label with an address. -/
  | unresolvedSymbol (mnemonic label : String)
  /-- A constant has more digits than a word. -/
  | operandTooWide (operand : String)
deriving DecidableEq, Repr

/-- A detail of a finding. -/
inductive Detail where
  /-- A number. -/
  | number (value : Nat)
  /-- A text. -/
  | text (value : String)
deriving DecidableEq, Repr

namespace Finding

/-- How grave a finding is. -/
def severity : Finding → Severity
  | .unknownMnemonic _ | .unresolvedSymbol _ _ => .error
  | _ => .warning

/-- The wording of a finding. -/
def message : Finding → String
  | .missingStart => "no START before the first instruction, assuming base address 0"
  | .missingOrigin => "START without an origin, assuming 0"
  | .duplicateLabel label first =>
    s!"label `{label}` already defined on line {first}; references resolve to the first definition"
  | .badReserveCount mnemonic operand =>
    s!"{mnemonic} count `{operand}` is not a decimal number, reserving 3 bytes"
  | .unknownMnemonic mnemonic => s!"unknown mnemonic `{mnemonic}`"
  | .unresolvedSymbol mnemonic label => s!"{mnemonic}: undefined symbol `{label}`"
  | .operandTooWide operand => s!"operand `{operand}` is wider than 6 hex digits"

/-- The name of a finding in a report. -/
def name : Finding → String
  | .missingStart => "missing_start"
  | .missingOrigin => "missing_origin"
  | .duplicateLabel _ _ => "duplicate_label"
  | .badReserveCount _ _ => "bad_reserve_count"
  | .unknownMnemonic _ => "unknown_mnemonic"
  | .unresolvedSymbol _ _ => "unresolved_symbol"
  | .operandTooWide _ => "operand_too_wide"

/-- The details of a finding, in the order of a report. -/
def details : Finding → List (String × Detail)
  | .missingStart | .missingOrigin => []
  | .duplicateLabel label first => [("label", .text label), ("first", .number first)]
  | .badReserveCount mnemonic operand =>
    [("mnemonic", .text mnemonic), ("operand", .text operand)]
  | .unknownMnemonic mnemonic => [("mnemonic", .text mnemonic)]
  | .unresolvedSymbol mnemonic label =>
    [("mnemonic", .text mnemonic), ("label", .text label)]
  | .operandTooWide operand => [("operand", .text operand)]

end Finding

/-- A finding and the line it is about. -/
structure Diagnostic where
  /-- The number of the line. -/
  line : Nat
  /-- What was found there. -/
  finding : Finding
deriving DecidableEq, Repr

namespace Diagnostic

/-- How grave the diagnostic is. -/
def severity (d : Diagnostic) : Severity := d.finding.severity

/-- The wording of the diagnostic. -/
def message (d : Diagnostic) : String := d.finding.message

/-- Whether the diagnostic is an error. -/
def isError (d : Diagnostic) : Bool := d.severity = .error

/-- The diagnostic on one line. -/
def render (d : Diagnostic) : String :=
  s!"line {d.line}: {d.severity.name}: {d.message}"

/-- Everything a report says about the diagnostic, in order. -/
def report (d : Diagnostic) : List (String × Detail) :=
  [("line", .number d.line), ("severity", .text d.severity.name),
   ("kind", .text d.finding.name)] ++ d.finding.details ++ [("message", .text d.message)]

/-- How many of some diagnostics are errors. -/
def errorCount (diagnostics : List Diagnostic) : Nat := diagnostics.countP isError

end Diagnostic

end TwoPass
