import TwoPass.Diagnostic
import TwoPass.Log
import TwoPass.SymbolTable

/-!
# Events

An assembly leaves a trace: the events of its two passes in the order in which
they happened. Diagnostics are among them, so the trace is the one place where
a pass reports anything, and `Event.diagnostics` reads the diagnostics off it.

`Event.entry` gives an event the form of a log entry.
-/

namespace TwoPass

/-- Something that happened in an assembly. -/
inductive Event where
  /-- A line was cut into fields. -/
  | fieldsFound (line count : Nat)
  /-- A diagnostic was reported. -/
  | diagnosed (diagnostic : Diagnostic)
  /-- A statement got its place in memory. -/
  | placed (line : Nat) (address size : String)
  /-- The first pass reached the end of the program. -/
  | firstPassDone (lines : Nat) (next : Option String)
  /-- The second pass knows a symbol for data. -/
  | symbolKnown (symbol : Symbol)
  /-- The object program was built. -/
  | objectBuilt (name : String) (textRecords : Nat)
  /-- The assembly came to its end. -/
  | assemblyDone (lines diagnostics : Nat)
deriving DecidableEq, Repr

/-- The diagnostic of an event that reports one. -/
def Event.diagnostic? : Event → Option Diagnostic
  | .diagnosed d => some d
  | _ => none

/-- The diagnostics of a trace, in order. -/
def Event.diagnostics (events : List Event) : List Diagnostic :=
  events.filterMap Event.diagnostic?

/-- The log entry of an event. -/
def Event.entry : Event → LogEntry
  | .fieldsFound line count =>
    { level := .trace, target := "sicxe_asm::parser", message := "parsed fields"
      values := [("line", .number line), ("fields", .number count)] }
  | .diagnosed d =>
    { level := .warn, target := "sicxe_asm::diag", message := d.message
      values := [("line", .number d.line), ("severity", .plain d.severity.name)] }
  | .placed line address size =>
    { level := .trace, target := "sicxe_asm::locctr", message := "placed"
      values := [("line", .number line), ("address", .plain address), ("size", .plain size)] }
  | .firstPassDone lines next =>
    { level := .debug, target := "sicxe_asm::locctr", message := "first pass done"
      values := [("lines", .number lines), ("next", .optional next)] }
  | .symbolKnown symbol =>
    { level := .debug, target := "sicxe_asm::resolve", message := "SYMTAB"
      values := [("address", .optional symbol.address), ("label", .plain symbol.name),
        ("line", .number symbol.line)] }
  | .objectBuilt name textRecords =>
    { level := .debug, target := "sicxe_asm::object", message := "object program built"
      values := [("name", .plain name), ("text_records", .number textRecords)] }
  | .assemblyDone lines diagnostics =>
    { level := .debug, target := "sicxe_asm::assembler", message := "assembly complete"
      values := [("lines", .number lines), ("diagnostics", .number diagnostics)] }

end TwoPass
