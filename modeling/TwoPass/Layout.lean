import TwoPass.Decimal
import TwoPass.Event

/-!
# The first pass: layout in memory

The first pass reads the source lines in order and gives each statement the
next free address. Its state between two lines is a `Layout`: the address
reached, the extent of the statement placed last, the line of the `START` and
the labels seen so far. Addresses and sizes are hexadecimal text throughout,
the way a listing shows them.

The base moves late. It stays on the statement placed last until the next line
comes in, and only then goes past that statement's extent. `START` sets the
base to its origin. A program that does not open with `START` is laid out from
zero, and its first statement gets no address.

A line that ends in a fault still leaves its mark on the layout: the base has
moved, the label counts as defined, and a `START` counts as seen even if its
origin cannot be read.
-/

namespace TwoPass

/-- The highest address of the machine. -/
def maxAddress : Nat := 0xFFFFFF

/-- The largest number of bytes a statement reserves; a larger count is cut
down to it. -/
def maxReserve : Nat := 0xFFFFFFFF

/-- Whether a text reads as an address of the machine. A sum that outgrew the
numerals does not. -/
def isAddress (text : String) : Bool :=
  match Hex.parse text with
  | .ok value => value ≤ maxAddress
  | .error _ => false

namespace Statement

/-- The count of a reservation, if its operand can be read as one. -/
def count? (s : Statement) : Option Nat :=
  match s.operand with
  | some (.literal count) => Decimal.count? count
  | _ => none

/-- The number of bytes a reservation of `unit` bytes a piece takes, or three if
its count cannot be read. -/
def reserve (s : Statement) (unit : Nat) : String × List Diagnostic :=
  match s.count? with
  | some n => (Hex.render (min (n * unit) maxReserve), [])
  | none => ("3", [⟨s.line, .badReserveCount s.mnemonic.name s.operandText⟩])

/-- The number of bytes a statement takes, and what there is to say about
it. -/
def size (s : Statement) : String × List Diagnostic :=
  match s.mnemonic with
  | .directive .start | .directive .finish => ("0", [])
  | .directive .reserveWords => s.reserve 3
  | .directive .reserveBytes => s.reserve 1
  | _ => ("3", [])

end Statement

/-- A stretch of memory. -/
structure Extent where
  /-- Its first address. -/
  address : String
  /-- Its number of bytes. -/
  size : String
deriving DecidableEq, Repr

/-- The state of the first pass between two lines. -/
structure Layout where
  /-- The address of the statement placed last, or the address to go on from. -/
  base : Option String := none
  /-- The extent of the statement placed last, until the base moves past it. -/
  pending : Option Extent := none
  /-- The line of the `START`. -/
  startLine : Option Nat := none
  /-- The labels defined so far, each with its first line. -/
  labels : List (String × Nat) := []
deriving DecidableEq, Repr

/-- What became of one line. -/
structure Placement where
  /-- The layout after the line. -/
  layout : Layout
  /-- What happened on it, in order. -/
  events : List Event
  /-- The statement with its address, or the fault. -/
  result : Except Fault Statement

namespace Layout

/-- The base goes past the statement placed last. Its extent is used up, also
if the two texts cannot be added. -/
def advance (l : Layout) : Layout × Except HexFault Unit :=
  match l.base, l.pending with
  | some _, some last =>
    match Hex.add last.address last.size with
    | .ok next => ({ l with base := some next, pending := none }, .ok ())
    | .error cause => ({ l with pending := none }, .error cause)
  | _, _ => (l, .ok ())

/-- The label of a statement is defined, or reported if it was before. -/
def define (l : Layout) (s : Statement) : Layout × List Diagnostic :=
  match s.label with
  | none => (l, [])
  | some label =>
    match l.labels.lookup label with
    | some first => (l, [⟨s.line, .duplicateLabel label first⟩])
    | none => ({ l with labels := l.labels ++ [(label, s.line)] }, [])

/-- A `START` on the line `text` sets the base; any other statement leaves it
alone. There is at most one `START`. -/
def start (l : Layout) (s : Statement) (text : String) :
    Layout × List Diagnostic × Except Fault Unit :=
  if s.isStart then
    match l.startLine with
    | some first => (l, [], .error (.duplicateStart s.line text first))
    | none =>
      let l := { l with startLine := some s.line }
      match s.operand with
      | some (.literal origin) =>
        match Hex.parse origin with
        | .ok value => ({ l with base := some (Hex.render value) }, [], .ok ())
        | .error cause => (l, [], .error (.hex s.line text cause))
      | _ => ({ l with base := some "0" }, [⟨s.line, .missingOrigin⟩], .ok ())
  else (l, [], .ok ())

/-- The statement on the line `text` takes its place at the base. If there is
no base yet it gets no address, and the next one lies at zero. -/
def settle (l : Layout) (s : Statement) (text : String) : Placement :=
  match l.base with
  | none =>
    { layout := { l with base := some "0" }
      events := [.diagnosed ⟨s.line, .missingStart⟩]
      result := .ok s }
  | some base =>
    if isAddress base then
      let (size, found) := s.size
      { layout := { l with pending := some ⟨base, size⟩ }
        events := found.map .diagnosed ++ [.placed s.line base size]
        result := .ok { s with address := some base } }
    else
      { layout := l, events := [], result := .error (.addressOverflow s.line text base) }

/-- One source line is read and placed, the base having moved. -/
def placeNext (l : Layout) (line : Nat) (text : String) : Placement :=
  let cut := Event.fieldsFound line (Text.fields text).length
  match Statement.read line text with
  | .error fault => { layout := l, events := [cut], result := .error fault }
  | .ok s =>
    let (l, repeated) := l.define s
    let (l, opened, outcome) := l.start s text
    let events := cut :: (repeated ++ opened).map .diagnosed
    match outcome with
    | .error fault => { layout := l, events, result := .error fault }
    | .ok () =>
      let settled := l.settle s text
      { settled with events := events ++ settled.events }

/-- One source line is read and placed. -/
def place (l : Layout) (line : Nat) (text : String) : Placement :=
  match l.advance with
  | (l, .error cause) => { layout := l, events := [], result := .error (.hex line text cause) }
  | (l, .ok ()) => l.placeNext line text

end Layout

/-- What became of a sequence of lines. -/
structure FirstPass where
  /-- The layout after the last line that was read. -/
  layout : Layout
  /-- What happened, in order. -/
  events : List Event
  /-- The statements, or the fault that ended the pass. -/
  result : Except Fault (List Statement)

namespace FirstPass

/-- The lines of a program are placed one after the other, the first of them
being the line number `line`. The first fault ends the pass. -/
def runFrom (l : Layout) (line : Nat) : List String → FirstPass
  | [] => { layout := l, events := [], result := .ok [] }
  | text :: more =>
    let placed := l.place line text
    match placed.result with
    | .error fault =>
      { layout := placed.layout, events := placed.events, result := .error fault }
    | .ok s =>
      let rest := runFrom placed.layout (line + 1) more
      { rest with
        events := placed.events ++ rest.events
        result := rest.result.map (s :: ·) }

/-- The first pass over the lines of a program. -/
def run (lines : List String) : FirstPass :=
  let pass := runFrom {} 1 lines
  match pass.result with
  | .error _ => pass
  | .ok statements =>
    { pass with
      events := pass.events ++ [.firstPassDone statements.length pass.layout.base] }

/-- The diagnostics of the pass. -/
def diagnostics (pass : FirstPass) : List Diagnostic := Event.diagnostics pass.events

end FirstPass

end TwoPass
