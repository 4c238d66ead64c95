import TwoPass.Hex.Basic

/-!
# Tokens of JSON text

JSON text is cut into tokens before it is read: brackets, commas and colons,
strings, and bare words, which are numbers and the three names.

A string token keeps its escapes apart from its characters (`StringPart`),
because an escape gives a code unit of sixteen bits and not a character: two
units may belong together, and a unit may be left alone. `StringPart.text?` is
the text that results, if there is one.
-/

namespace TwoPass.Json

/-- A part of a string: a character, or a code unit from an escape. -/
inductive StringPart where
  /-- A character. -/
  | char (c : Char)
  /-- A code unit of sixteen bits. -/
  | unit (value : Nat)
deriving DecidableEq, Repr

namespace StringPart

/-- Whether a code unit is the first half of a pair. -/
def isLeading (value : Nat) : Bool := 0xD800 ≤ value && value ≤ 0xDBFF

/-- Whether a code unit is the second half of a pair. -/
def isTrailing (value : Nat) : Bool := 0xDC00 ≤ value && value ≤ 0xDFFF

/-- The character of a pair of code units. -/
def pair (leading trailing : Nat) : Char :=
  Char.ofNat (0x10000 + (leading - 0xD800) * 0x400 + (trailing - 0xDC00))

/-- The characters of some parts. There are none if half of a pair stands
alone. -/
def chars? : List StringPart → Option (List Char)
  | [] => some []
  | .char c :: more => (chars? more).map (c :: ·)
  | .unit leading :: .unit trailing :: more =>
    if isLeading leading then
      if isTrailing trailing then (chars? more).map (pair leading trailing :: ·) else none
    else if isTrailing leading then none
    else (chars? (.unit trailing :: more)).map (Char.ofNat leading :: ·)
  | .unit value :: more =>
    if isLeading value || isTrailing value then none
    else (chars? more).map (Char.ofNat value :: ·)

/-- The text of some parts. -/
def text? (parts : List StringPart) : Option String := (chars? parts).map String.ofList

end StringPart

/-- A token of JSON text. -/
inductive Token where
  /-- An opening bracket. -/
  | openBracket
  /-- A closing bracket. -/
  | closeBracket
  /-- An opening brace. -/
  | openBrace
  /-- A closing brace. -/
  | closeBrace
  /-- A comma. -/
  | comma
  /-- A colon. -/
  | colon
  /-- A string and its text, if it has one. -/
  | string (text : Option String)
  /-- A bare word. -/
  | word (chars : List Char)
deriving DecidableEq, Repr

namespace Token

/-- The characters between tokens. -/
def isSpace (c : Char) : Bool := c = ' ' || c = '\t' || c = '\n' || c = '\r'

/-- The characters of a bare word. -/
def isWordChar (c : Char) : Bool := c.isAlphanum || c = '+' || c = '-' || c = '.'

/-- The token that a mark is. -/
def mark? : Char → Option Token
  | '[' => some .openBracket
  | ']' => some .closeBracket
  | '\x7b' => some .openBrace
  | '\x7d' => some .closeBrace
  | ',' => some .comma
  | ':' => some .colon
  | _ => none

/-- The code unit of four hexadecimal digits. -/
def unit? (a b c d : Char) : Option Nat :=
  ([a, b, c, d].mapM Hex.digit?).map Hex.ofDigits

/-- The character of a short escape. -/
def escaped? : Char → Option Char
  | '"' => some '"'
  | '\\' => some '\\'
  | '/' => some '/'
  | 'b' => some '\x08'
  | 'f' => some '\x0c'
  | 'n' => some '\n'
  | 'r' => some '\r'
  | 't' => some '\t'
  | _ => none

/-- The parts of a string up to its closing quote, and what follows. A control
character has to be escaped. -/
def string? : List Char → Option (List StringPart × List Char)
  | [] => none
  | '"' :: rest => some ([], rest)
  | '\\' :: 'u' :: a :: b :: c :: d :: rest =>
    match unit? a b c d, string? rest with
    | some value, some (parts, after) => some (.unit value :: parts, after)
    | _, _ => none
  | '\\' :: c :: rest =>
    match escaped? c, string? rest with
    | some plain, some (parts, after) => some (.char plain :: parts, after)
    | _, _ => none
  | c :: rest =>
    if c < ' ' then none
    else
      match string? rest with
      | some (parts, after) => some (.char c :: parts, after)
      | none => none

/-- What follows a string is shorter than the string. -/
theorem length_lt_of_string? {chars after : List Char} {parts : List StringPart}
    (h : string? chars = some (parts, after)) : after.length < chars.length := by
  fun_induction string? chars generalizing parts <;>
    simp only [List.length_cons, List.length_nil] <;> grind

/-- The tokens of JSON text. -/
def scan : List Char → Option (List Token)
  | [] => some []
  | c :: rest =>
    if isSpace c then scan rest
    else if c = '"' then
      match _h : string? rest with
      | some (parts, after) => (scan after).map (.string (StringPart.text? parts) :: ·)
      | none => none
    else if isWordChar c then
      (scan (rest.dropWhile isWordChar)).map (.word (c :: rest.takeWhile isWordChar) :: ·)
    else
      match mark? c with
      | some mark => (scan rest).map (mark :: ·)
      | none => none
termination_by chars => chars.length
decreasing_by
  · simp
  · have := length_lt_of_string? _h
    simp only [List.length_cons]
    omega
  · have := (List.dropWhile_sublist isWordChar (l := rest)).length_le
    simp only [List.length_cons]
    omega
  · simp

end Token

end TwoPass.Json
