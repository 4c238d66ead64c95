import TwoPass.Decimal
import TwoPass.Json.Token

/-!
# JSON values

A value is read from its tokens in one walk with a stack. The stack holds what
is still open around the place where the walk stands: the items of an array
before it, or the members of an object before it and the key it is the value
of. The walk is at one of two kinds of place: `Json.expect` is where a value
has to begin, `Json.deliver` is where one has just ended. Both take at least
one token at every step, so the walk ends.

A number is kept as it is written, and a string as its text, which is missing
where half of a pair of code units stands alone in it.
-/

namespace TwoPass

/-- A JSON value. -/
inductive Json where
  /-- The null value. -/
  | null
  /-- A truth value. -/
  | bool (value : Bool)
  /-- A number, as it is written. -/
  | number (literal : List Char)
  /-- A string and its text, if it has one. -/
  | string (text : Option String)
  /-- An array. -/
  | array (items : List Json)
  /-- An object, with its members in the order in which they are written. -/
  | object (members : List (Option String × Json))
deriving Repr

namespace Json

/-- Whether some characters are at least one decimal digit. -/
def isDigits (chars : List Char) : Bool := !chars.isEmpty && chars.all Char.isDigit

/-- Whether some characters are the exponent of a number, or nothing. -/
def isExponent : List Char → Bool
  | [] => true
  | e :: rest =>
    (e = 'e' || e = 'E') &&
      match rest with
      | '+' :: digits | '-' :: digits => isDigits digits
      | digits => isDigits digits

/-- Whether some characters are what follows the integer part of a number. -/
def isFraction : List Char → Bool
  | '.' :: digit :: rest => digit.isDigit && isExponent (rest.dropWhile Char.isDigit)
  | rest => isExponent rest

/-- Whether some characters are a number without sign. The integer part has no
leading zero. -/
def isUnsigned : List Char → Bool
  | '0' :: rest => isFraction rest
  | digit :: rest => digit.isDigit && isFraction (rest.dropWhile Char.isDigit)
  | [] => false

/-- Whether some characters are a number. -/
def isNumber : List Char → Bool
  | '-' :: rest => isUnsigned rest
  | rest => isUnsigned rest

/-- The value of a bare word. -/
def ofWord? (word : List Char) : Option Json :=
  if word = "null".toList then some .null
  else if word = "true".toList then some (.bool true)
  else if word = "false".toList then some (.bool false)
  else if isNumber word then some (.number word)
  else none

/-- What is open around a place in JSON text. -/
inductive Frame where
  /-- An array, with the items before the place, the last of them first. -/
  | array (before : List Json)
  /-- An object, with the members before the place, the last of them first,
  and the key of the value at the place. -/
  | object (before : List (Option String × Json)) (key : Option String)

mutual

/-- The value of tokens that go on with the beginning of a value. -/
def expect (stack : List Frame) : List Token → Option Json
  | .word word :: more =>
    match ofWord? word with
    | some value => deliver value stack more
    | none => none
  | .string text :: more => deliver (.string text) stack more
  | .openBracket :: .closeBracket :: more => deliver (.array []) stack more
  | .openBracket :: more => expect (.array [] :: stack) more
  | .openBrace :: .closeBrace :: more => deliver (.object []) stack more
  | .openBrace :: .string key :: .colon :: more => expect (.object [] key :: stack) more
  | _ => none
termination_by structural tokens => tokens

/-- The value of tokens that go on behind a value. -/
def deliver (value : Json) (stack : List Frame) : List Token → Option Json
  | [] =>
    match stack with
    | [] => some value
    | _ => none
  | .comma :: .string key :: .colon :: more =>
    match stack with
    | .object before key' :: outer => expect (.object ((key', value) :: before) key :: outer) more
    | _ => none
  | .comma :: more =>
    match stack with
    | .array before :: outer => expect (.array (value :: before) :: outer) more
    | _ => none
  | .closeBracket :: more =>
    match stack with
    | .array before :: outer => deliver (.array (value :: before).reverse) outer more
    | _ => none
  | .closeBrace :: more =>
    match stack with
    | .object before key :: outer =>
      deliver (.object ((key, value) :: before).reverse) outer more
    | _ => none
  | _ => none
termination_by structural tokens => tokens

end

/-- The value that JSON text stands for. -/
def ofText? (text : String) : Option Json := (Token.scan text.toList).bind (expect [])

/-- The natural number a value is, if it is written with digits alone and fits
a word of 64 bits. -/
def natural? : Json → Option Nat
  | .number literal => Decimal.ofChars? literal
  | _ => none

end Json

end TwoPass
