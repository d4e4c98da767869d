/-! # Handles of types

A `TypeId` is the place of a type in its catalog.  Built-in types come first, then the declared ones
in the order of their declarations. -/

namespace Schemata

/-- The place of a type in its catalog. -/
structure TypeId where
  index : Nat
  deriving Repr, DecidableEq, Inhabited

namespace TypeId

/-- The written form of a handle: its index after a number sign. -/
def text (t : TypeId) : String := "#" ++ toString t.index

end TypeId

end Schemata
