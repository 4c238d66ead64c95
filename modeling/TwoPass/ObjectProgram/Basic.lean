import TwoPass.Hex.Basic

/-!
# Object programs

An object program is what a loader reads: a header record with the name, the
first address and the length of the program, text records with object code and
the address it goes to, and an end record with the address to start at. Each
record is a line of its own, and its parts stand between carets.

The length of a text record counts bytes, two characters of code for each, and
has at least two digits.
-/

namespace TwoPass

/-- The header record. -/
structure Header where
  /-- The name of the program. -/
  name : String
  /-- Its first address. -/
  start : String
  /-- Its length in bytes. -/
  length : String
deriving DecidableEq, Repr

/-- A text record. -/
structure TextRecord where
  /-- The address of its first code. -/
  address : String
  /-- Its codes. -/
  codes : List String
deriving DecidableEq, Repr

/-- An object program. -/
structure ObjectProgram where
  /-- The header record. -/
  header : Header
  /-- The text records. -/
  text : List TextRecord
  /-- The address of the end record, where execution starts. -/
  entry : String
deriving DecidableEq, Repr

/-- Some parts with a caret before each. -/
def caretJoin (parts : List String) : String :=
  String.join (parts.map ("^" ++ ·))

/-- The header record as a line. -/
def Header.render (h : Header) : String := "H" ++ caretJoin [h.name, h.start, h.length]

namespace TextRecord

/-- The number of bytes the codes stand for. -/
def byteCount (r : TextRecord) : Nat :=
  r.codes.foldl (fun count code => count + code.utf8ByteSize) 0 / 2

/-- The number of bytes in hexadecimal. -/
def lengthField (r : TextRecord) : String :=
  String.ofList (Hex.fixed (max 2 (Hex.width r.byteCount)) r.byteCount)

/-- The text record as a line. -/
def render (r : TextRecord) : String :=
  "T" ++ caretJoin (r.address :: r.lengthField :: r.codes)

end TextRecord

namespace ObjectProgram

/-- The end record as a line. -/
def endLine (p : ObjectProgram) : String := "E" ++ caretJoin [p.entry]

/-- The records as lines. -/
def lines (p : ObjectProgram) : List String :=
  p.header.render :: p.text.map TextRecord.render ++ [p.endLine]

/-- The object program as text. -/
def render (p : ObjectProgram) : String := String.join (p.lines.map (· ++ "\n"))

end ObjectProgram

end TwoPass
