/-!
# Settings

What can be chosen about an assembly. Each choice has a usual value, so `{}` is
the usual settings.
-/

namespace TwoPass

/-- The choices of an assembly. -/
structure Settings where
  /-- The name of a program whose `START` has no label. -/
  programName : String := "PROG"
  /-- How many codes a text record holds; none counts as one. -/
  recordCapacity : Nat := 8
  /-- Whether a diagnostic that is an error ends the assembly. -/
  strict : Bool := false
deriving DecidableEq, Repr

end TwoPass
