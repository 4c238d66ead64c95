import TwoPass.Statement

/-!
# Listings

A listing shows every statement on a row of its own, in six columns between
tabs: the line, the address, the label, the mnemonic, the operand and the
object code. What a statement does not have is left blank, and so is the
address of `START` and `END`.
-/

namespace TwoPass.Listing

/-- The columns of a statement. -/
def columns (s : Statement) : List String :=
  [toString s.line,
   if s.mnemonic.isControl then "" else s.address.getD "",
   s.label.getD "",
   s.mnemonic.name,
   s.operandText,
   s.code.getD ""]

/-- The row of a statement. -/
def row (s : Statement) : String := "\t".intercalate (columns s)

/-- The listing of some statements, in the order given. -/
def render (statements : List Statement) : String :=
  String.join (statements.map (row · ++ "\n"))

end TwoPass.Listing
