import TwoPass.Log
import TwoPass.Report
import TwoPass.Settings.Reader

/-!
# The toolkit of a command

A command leaves some work to others: settings are read and reports are written in a
common format, failures are told and log lines are set in a common form, and which log
lines are wanted is a matter of the place it runs at. A system may also have names that are
not text; for such a name some text has to be found. A `Toolkit` is whoever does that work.
Nothing else about a command depends on it.

`Toolkit.usual` is the toolkit of the program, at a place where all names are text and no log
lines are wanted but those a command is asked for.
-/

namespace TwoPass.Command

/-- Why a command failed, and what lay behind it. -/
structure Failure where
  /-- What failed. -/
  message : String
  /-- What lay behind it. -/
  cause : Option String := none
deriving DecidableEq, Repr

/-- The text in which a failure is told. -/
def Failure.render (f : Failure) : String :=
  match f.cause with
  | none => s!"Error: {f.message}"
  | some cause => s!"Error: {f.message}\n\nCaused by:\n    {cause}"

/-- The work that a command leaves to others. -/
structure Toolkit where
  /-- The text for a path or a part of one. -/
  shown : String → String
  /-- The settings that a text stands for. If there are none, the reader may say why. -/
  settings : String → Except (Option String) Settings
  /-- The report of some diagnostics, each given by all that a report says about it. -/
  report : List (List (String × Detail)) → String
  /-- The text in which a failure is told. -/
  failure : Failure → String
  /-- The line of a log entry, if it is wanted. The log as a whole may have been asked for. -/
  log : Bool → LogEntry → Option String

/-- The usual toolkit. -/
def Toolkit.usual : Toolkit where
  shown := id
  settings text :=
    match Settings.ofText? text with
    | some settings => .ok settings
    | none => .error none
  report := Report.render
  failure := Failure.render
  log verbose entry := if verbose ∧ entry.level ≠ .trace then some entry.render else none

end TwoPass.Command
