import TwoPass.Event
import TwoPass.Hex.Bits

/-!
# The second pass: object code

The second pass gives each statement its object code, three bytes written as
six digits. A machine operation starts with its opcode byte. A direct operand
adds the address of its label behind it, in the spelling the first pass gave
it, and zeros fill what is left; an indexed operand adds a field of four
digits whose leading bit is the index flag. A constant is its own code.

A statement whose mnemonic or label is unknown is reported and gets no code.
Only hexadecimal text that cannot be read ends the pass: the statements before
it have their new codes then, and it and the later ones keep what they had.

Codes are computed from addresses and labels alone. A code that a statement
had before never counts.
-/

namespace TwoPass

/-- The digits of a cell of object code. -/
def codeDigits : Nat := 6

/-- The digits of an address field. -/
def fieldDigits : Nat := 4

/-- The address field of an indexed operand: the address in at least four
digits, with its leading bit set. -/
def indexedField (address : String) : Except HexFault String := do
  let field ← Hex.padLeft address fieldDigits
  let bits ← Bits.ofHex field
  return Bits.toHex (true :: bits.tail)

/-- The object code of a statement, and what there is to say about it. -/
structure ObjectCode where
  /-- The code, if there is any. -/
  code : Option String
  /-- The findings. -/
  findings : List Finding := []
deriving DecidableEq, Repr

namespace Statement

/-- The code of a constant. -/
def encodeConstant (s : Statement) (number : String) : Except Fault ObjectCode :=
  match Hex.padLeft number codeDigits with
  | .error cause => .error (.hex s.line s.source cause)
  | .ok code =>
    if codeDigits < code.length then
      .ok { code := some code, findings := [.operandTooWide number] }
    else .ok { code := some code }

/-- The code of an operation byte and the operand behind it. The byte is empty
for a constant that refers to a label. -/
def encodeReference (s : Statement) (storage labels : SymbolTable) (byte : String) :
    Except Fault ObjectCode :=
  match s.operand with
  | none => .ok { code := some (Hex.padRight byte codeDigits) }
  | some (.indexed label _) =>
    match storage.address? label with
    | none => .ok { code := none, findings := [.unresolvedSymbol s.mnemonic.name label] }
    | some address =>
      match indexedField address with
      | .error cause => .error (.hex s.line s.source cause)
      | .ok field => .ok { code := some (byte ++ field) }
  | some (.direct label) | some (.literal label) =>
    match labels.address? label with
    | none => .ok { code := none, findings := [.unresolvedSymbol s.mnemonic.name label] }
    | some address => .ok { code := some (Hex.padRight (byte ++ address) codeDigits) }

/-- The object code of a statement, given the labels of data and all labels. -/
def encode (s : Statement) (storage labels : SymbolTable) : Except Fault ObjectCode :=
  match s.mnemonic with
  | .unknown name => .ok { code := none, findings := [.unknownMnemonic name] }
  | .machine op => s.encodeReference storage labels op.code
  | .directive .word =>
    match s.operand with
    | some (.literal number) => s.encodeConstant number
    | _ => s.encodeReference storage labels ""
  | .directive _ => .ok { code := none }

end Statement

/-- What became of the statements of a program. -/
structure SecondPass where
  /-- The statements the pass leaves behind. -/
  statements : List Statement
  /-- What happened, in order. -/
  events : List Event
  /-- The fault that ended the pass, if one did. -/
  fault : Option Fault

namespace SecondPass

/-- The statements get their codes one after the other, up to the first
fault. -/
def runWith (storage labels : SymbolTable) : List Statement → SecondPass
  | [] => { statements := [], events := [], fault := none }
  | s :: more =>
    match s.encode storage labels with
    | .error fault => { statements := s :: more, events := [], fault := some fault }
    | .ok made =>
      let rest := runWith storage labels more
      { rest with
        statements := { s with code := made.code } :: rest.statements
        events := made.findings.map (fun f => .diagnosed ⟨s.line, f⟩) ++ rest.events }

/-- The second pass over the statements of a program. -/
def run (statements : List Statement) : SecondPass :=
  let storage := SymbolTable.storage statements
  let pass := runWith storage (SymbolTable.all statements) statements
  { pass with events := storage.symbols.map .symbolKnown ++ pass.events }

/-- The diagnostics of the pass. -/
def diagnostics (pass : SecondPass) : List Diagnostic := Event.diagnostics pass.events

end SecondPass

end TwoPass
