/-!
# Source text

How a text is cut up: into lines, and a line into fields. Everything rests on
`Text.pieces`, which cuts a sequence of characters at every character of a
class and keeps the empty pieces; joining the pieces again with the
characters that were cut out gives the sequence back.
-/

namespace TwoPass.Text

/-- The maximal runs between the characters that satisfy `cut`, the empty
ones included; there is always one more run than there are cuts. -/
def pieces (cut : Char → Bool) : List Char → List (List Char)
  | [] => [[]]
  | c :: rest =>
    if cut c then [] :: pieces cut rest
    else
      match pieces cut rest with
      | [] => [[c]]
      | piece :: more => (c :: piece) :: more

/-- The pieces of a text as texts. -/
def split (cut : Char → Bool) (text : String) : List String :=
  (pieces cut text.toList).map String.ofList

/-- The characters between the fields of a line. -/
def isBlank (c : Char) : Bool := c = ' ' || c = '\t'

/-- The fields of a line: its non-empty pieces between blanks. No other kind
of space ends a field. -/
def fields (text : String) : List String :=
  ((pieces isBlank text.toList).filter (· ≠ [])).map String.ofList

/-- The texts before and after the first comma. -/
def splitComma? (text : String) : Option (String × String) :=
  match text.toList.dropWhile (· ≠ ',') with
  | [] => none
  | _ :: after =>
    some (String.ofList (text.toList.takeWhile (· ≠ ',')), String.ofList after)

/-- A line without the carriage return that belongs to its line feed. -/
def dropReturn : List Char → List Char
  | [] => []
  | ['\r'] => []
  | c :: rest => c :: dropReturn rest

/-- The lines among the pieces between line feeds: every piece but the last
was ended by a line feed, and an empty last piece is no line. -/
def linesOfPieces : List (List Char) → List (List Char)
  | [] => []
  | [last] => if last = [] then [] else [last]
  | line :: more => dropReturn line :: linesOfPieces more

/-- The lines of a text. A line ends at a line feed, which may have a carriage
return before it, or at the end of the text. -/
def lines (text : String) : List String :=
  (linesOfPieces (pieces (· = '\n') text.toList)).map String.ofList

/-- The characters that can end a line. -/
def isLineEnd (c : Char) : Bool := c = '\r' || c = '\n'

/-- A line without any line ends that trail it. -/
def trimEnd (text : String) : String :=
  String.ofList (text.toList.reverse.dropWhile isLineEnd).reverse

/-- The lines that are assembled: those before the first empty one, without
their line ends. -/
def program (lines : List String) : List String :=
  (lines.map trimEnd).takeWhile (· ≠ "")

end TwoPass.Text
