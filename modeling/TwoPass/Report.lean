import TwoPass.Diagnostic
import TwoPass.Hex.Basic

/-!
# Reports

A report gives the diagnostics of an assembly as JSON, for other programs to
read: an array with an object for each diagnostic, on lines indented by two
spaces a level. Without diagnostics it is an empty array on one line.
-/

namespace TwoPass.Report

/-- A character inside a string. Quotes, backslashes and control characters are
escaped, and all else stands for itself. -/
def escape : Char → String
  | '"' => "\\\""
  | '\\' => "\\\\"
  | '\x08' => "\\b"
  | '\x0c' => "\\f"
  | '\n' => "\\n"
  | '\r' => "\\r"
  | '\t' => "\\t"
  | c =>
    if c < ' ' then "\\u" ++ String.ofList ((Hex.fixed 4 c.toNat).map Char.toLower)
    else c.toString

/-- A text as a string. -/
def quote (text : String) : String :=
  "\"" ++ String.join (text.toList.map escape) ++ "\""

/-- A detail as a value. -/
def value : Detail → String
  | .number n => toString n
  | .text text => quote text

/-- Named details as an object. -/
def object (details : List (String × Detail)) : String :=
  let members := details.map fun (name, detail) => s!"    {quote name}: {value detail}"
  "  \x7b\n" ++ ",\n".intercalate members ++ "\n  \x7d"

/-- The report of some diagnostics, each given by all that is to be said about it. -/
def render (diagnostics : List (List (String × Detail))) : String :=
  if diagnostics.isEmpty then "[]"
  else "[\n" ++ ",\n".intercalate (diagnostics.map object) ++ "\n]"

end TwoPass.Report
