import TwoPass.Hex.Basic

/-!
# Logs

A log entry has a weight, the part of the program it comes from, a message and
some named values. A log line shows all of them, each value behind its name and
in quotes where the entry says so.

A message quotes what stands in a source file, and a log line may go to a
terminal. So the message is shown with the characters escaped by which text
could take hold of a terminal. The other control characters do no harm there
and stand for themselves, and so does every character of a value.
-/

namespace TwoPass

/-- The weight of a log entry. -/
inductive Level where
  /-- A step on one line. -/
  | trace
  /-- A stage of the assembly. -/
  | debug
  /-- A step of the command line. -/
  | info
  /-- A diagnostic. -/
  | warn
deriving DecidableEq, Repr

/-- The name of a level in a log line. -/
def Level.name : Level → String
  | .trace => "TRACE"
  | .debug => "DEBUG"
  | .info => "INFO"
  | .warn => "WARN"

/-- A value of a log entry. -/
structure LogValue where
  /-- The value as text. -/
  text : String
  /-- Whether a log line puts it in quotes. -/
  quoted : Bool := false
deriving DecidableEq, Repr

namespace LogValue

/-- A number. -/
def number (n : Nat) : LogValue := { text := toString n }

/-- A text without quotes. -/
def plain (text : String) : LogValue := { text }

/-- A text that may be absent: in quotes, and a dash stands for none. -/
def optional (text : Option String) : LogValue :=
  { text := text.getD "-", quoted := true }

/-- The value in a log line. -/
def render (v : LogValue) : String := if v.quoted then s!"\"{v.text}\"" else v.text

end LogValue

/-- An entry of a log. -/
structure LogEntry where
  /-- Its weight. -/
  level : Level
  /-- The part of the program that made it. -/
  target : String
  /-- What it says. -/
  message : String
  /-- Its named values, in order. -/
  values : List (String × LogValue)
deriving DecidableEq, Repr

namespace LogEntry

/-- Whether a character by itself can make a terminal do something: the bell,
the backspace, the form feed, the escape and the delete character. -/
def isTerminalControl (c : Char) : Bool :=
  c = '\x07' || c = '\x08' || c = '\x0c' || c = '\x1b' || c = '\x7f'

/-- Whether a character is one of the control characters of eight bits, which
stand for an escape and a letter. -/
def isWideControl (c : Char) : Bool := 0x80 ≤ c.toNat && c.toNat ≤ 0x9F

/-- The two digits of a character below 256, in lower case. -/
def hexPair (c : Char) : String :=
  String.ofList ((Hex.fixed 2 c.toNat).map Char.toLower)

/-- A character of a message in a log line. -/
def visible (c : Char) : String :=
  if isTerminalControl c then "\\x" ++ hexPair c
  else if isWideControl c then "\\u\x7b" ++ hexPair c ++ "\x7d"
  else c.toString

/-- The entry as a log line. -/
def render (e : LogEntry) : String :=
  let message := String.join (e.message.toList.map visible)
  e.values.foldl (fun line (name, value) => s!"{line} {name}={value.render}")
    s!"{e.level.name} {e.target}: {message}"

end LogEntry

end TwoPass
