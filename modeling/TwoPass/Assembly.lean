import TwoPass.Encoding
import TwoPass.Layout
import TwoPass.Listing
import TwoPass.ObjectProgram.Builder

/-!
# Assembly

An assembly runs both passes over a program and makes the listing and the
object program. The program ends at the first empty line. Under strict
settings an error among the diagnostics ends the assembly after the second
pass; otherwise diagnostics end nothing.

A run also has its trace, whether it succeeds or not.
-/

namespace TwoPass

/-- What an assembly makes of a program. -/
structure Assembly where
  /-- The statements, with their addresses and codes. -/
  statements : List Statement
  /-- The listing. -/
  listing : String
  /-- The object program. -/
  object : ObjectProgram
  /-- The diagnostics of both passes. -/
  diagnostics : List Diagnostic
deriving DecidableEq, Repr

/-- A run of the assembler. -/
structure Run where
  /-- What happened, in order. -/
  events : List Event
  /-- The assembly, or the fault that ended it. -/
  result : Except Fault Assembly

namespace Run

/-- The end of a run: the statements went through both passes, and `events` is
their trace. -/
def conclude (settings : Settings) (statements : List Statement) (events : List Event) :
    Run :=
  let diagnostics := Event.diagnostics events
  let errors := Diagnostic.errorCount diagnostics
  if settings.strict ∧ 0 < errors then
    { events, result := .error (.unresolved errors) }
  else
    match ObjectProgram.build settings statements with
    | .error fault => { events, result := .error fault }
    | .ok object =>
      { events := events ++
          [.objectBuilt object.header.name object.text.length,
           .assemblyDone statements.length diagnostics.length]
        result := .ok { statements, listing := Listing.render statements, object, diagnostics } }

/-- The run over some lines. -/
def ofLines (settings : Settings) (lines : List String) : Run :=
  let first := FirstPass.run (Text.program lines)
  match first.result with
  | .error fault => { events := first.events, result := .error fault }
  | .ok statements =>
    let second := SecondPass.run statements
    let events := first.events ++ second.events
    match second.fault with
    | some fault => { events, result := .error fault }
    | none => conclude settings second.statements events

end Run

/-- The assembly of some lines. -/
def assemble (settings : Settings) (lines : List String) : Except Fault Assembly :=
  (Run.ofLines settings lines).result

/-- The assembly of a source text. -/
def assembleText (settings : Settings) (source : String) : Except Fault Assembly :=
  assemble settings (Text.lines source)

/-- The listing and the object program of some lines, under the usual
settings. -/
def compile (lines : List String) : Except Fault (String × String) :=
  (assemble {} lines).map fun assembly => (assembly.listing, assembly.object.render)

end TwoPass
