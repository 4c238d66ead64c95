import TwoPass.Hex.Basic

/-!
# Operations and directives

The second word of a source line is a mnemonic: the name of a machine
operation, the name of a directive to the assembler, or a word that is
neither. Names are matched exactly, case included.

A machine operation has an opcode byte and the formats it can be encoded in.
The five directives have neither: `START` and `END` delimit the program,
`RESW` and `RESB` reserve words and bytes, and `WORD` lays down a constant.
-/

namespace TwoPass

/-- The encodings of the machine, by their length in bytes. -/
inductive Format where
  /-- The opcode alone. -/
  | one
  /-- An opcode and two registers. -/
  | two
  /-- An opcode and a short address. -/
  | three
  /-- An opcode and an extended address. -/
  | four
deriving DecidableEq, Repr

/-- A machine operation. -/
structure Operation where
  /-- The mnemonic. -/
  name : String
  /-- The opcode byte. -/
  opcode : UInt8
  /-- The formats that can carry the operation. -/
  formats : List Format
deriving DecidableEq, Repr

namespace Operation

/-- An operation without operands. -/
def bare (name : String) (opcode : UInt8) : Operation := ⟨name, opcode, [.one]⟩

/-- An operation on registers. -/
def register (name : String) (opcode : UInt8) : Operation := ⟨name, opcode, [.two]⟩

/-- An operation on memory. -/
def memory (name : String) (opcode : UInt8) : Operation :=
  ⟨name, opcode, [.three, .four]⟩

/-- The operations of the machine, in alphabetical order. -/
def table : List Operation :=
  [.memory "ADD" 0x18,
   .memory "ADDF" 0x58,
   .register "ADDR" 0x90,
   .memory "AND" 0x40,
   .register "CLEAR" 0xB4,
   .memory "COMP" 0x28,
   .memory "COMPF" 0x88,
   .register "COMPR" 0xA0,
   .memory "DIV" 0x24,
   .memory "DIVF" 0x64,
   .register "DIVR" 0x9C,
   .bare "FIX" 0xC4,
   .bare "FLOAT" 0xC0,
   .bare "HIO" 0xF4,
   .memory "J" 0x3C,
   .memory "JEQ" 0x30,
   .memory "JGT" 0x34,
   .memory "JLT" 0x38,
   .memory "JSUB" 0x48,
   .memory "LDA" 0x00,
   .memory "LDB" 0x68,
   .memory "LDCH" 0x50,
   .memory "LDF" 0x70,
   .memory "LDL" 0x08,
   .memory "LDS" 0x6C,
   .memory "LDT" 0x74,
   .memory "LDX" 0x04,
   .memory "LPS" 0xD0,
   .memory "MUL" 0x20,
   .memory "MULF" 0x60,
   .register "MULR" 0x98,
   .bare "NORM" 0xC8,
   .memory "OR" 0x44,
   .memory "RD" 0xD8,
   .register "RMO" 0xAC,
   .memory "RSUB" 0x4C,
   .register "SHIFTL" 0xA4,
   .register "SHIFTR" 0xA8,
   .bare "SIO" 0xF0,
   .memory "SSK" 0xEC,
   .memory "STA" 0x0C,
   .memory "STB" 0x78,
   .memory "STCH" 0x54,
   .memory "STF" 0x80,
   .memory "STI" 0xD4,
   .memory "STL" 0x14,
   .memory "STS" 0x7C,
   .memory "STSW" 0xE8,
   .memory "STT" 0x84,
   .memory "STX" 0x10,
   .memory "SUB" 0x1C,
   .memory "SUBF" 0x5C,
   .register "SUBR" 0x94,
   .register "SVC" 0xB0,
   .memory "TD" 0xE0,
   .bare "TIO" 0xF8,
   .memory "TIX" 0x2C,
   .register "TIXR" 0xB8,
   .memory "WD" 0xDC]

/-- The opcode byte as two digits. -/
def code (op : Operation) : String := String.ofList (Hex.fixed 2 op.opcode.toNat)

end Operation

/-- A directive to the assembler. -/
inductive Directive where
  /-- Reserve words: `RESW`. -/
  | reserveWords
  /-- Reserve bytes: `RESB`. -/
  | reserveBytes
  /-- Lay down a constant of one word: `WORD`. -/
  | word
  /-- The program begins: `START`. -/
  | start
  /-- The program ends: `END`. -/
  | finish
deriving DecidableEq, Repr

namespace Directive

/-- The mnemonic of a directive. -/
def name : Directive → String
  | .reserveWords => "RESW"
  | .reserveBytes => "RESB"
  | .word => "WORD"
  | .start => "START"
  | .finish => "END"

/-- The directives, in the order of the table. -/
def table : List Directive := [.reserveWords, .reserveBytes, .word, .start, .finish]

end Directive

/-- What the mnemonic of a line stands for. -/
inductive Mnemonic where
  /-- A machine operation. -/
  | machine (op : Operation)
  /-- A directive. -/
  | directive (directive : Directive)
  /-- A word that names neither. -/
  | unknown (name : String)
deriving DecidableEq, Repr

namespace Mnemonic

/-- The word itself. -/
def name : Mnemonic → String
  | .machine op => op.name
  | .directive d => d.name
  | .unknown name => name

/-- Every mnemonic with a meaning: the operations, then the directives. -/
def table : List Mnemonic :=
  Operation.table.map .machine ++ Directive.table.map .directive

/-- The meaning of a word. -/
def lookup (word : String) : Mnemonic :=
  (table.find? (·.name = word)).getD (.unknown word)

/-- Whether the table has the mnemonic. -/
def isKnown : Mnemonic → Bool
  | .unknown _ => false
  | _ => true

/-- Whether the mnemonic is `START` or `END`, which take no memory and show no
address in a listing. -/
def isControl : Mnemonic → Bool
  | .directive .start | .directive .finish => true
  | _ => false

/-- Whether the mnemonic is `RESW`, `RESB` or `WORD`, whose labels name
data. -/
def isStorage : Mnemonic → Bool
  | .directive .reserveWords | .directive .reserveBytes | .directive .word => true
  | _ => false

end Mnemonic

end TwoPass
