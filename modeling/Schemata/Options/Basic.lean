/-! # Options

What a user can choose: how deep a walk may go, and how the targets of references begin. -/

namespace Schemata

/-- The choices of a user. -/
structure Options where
  /-- How many fields and elements a walk may go below a root. -/
  maxDepth : Nat := 50
  /-- What stands before the name of a component in the target of a reference. -/
  refPrefix : String := "#/components/schemas/"
  deriving Repr, DecidableEq, Inhabited

end Schemata
