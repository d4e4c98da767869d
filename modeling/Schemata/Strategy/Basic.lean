import Schemata.Build
import Schemata.Field
import Schemata.Options.Basic

/-! # Strategies

A strategy claims some types and builds the nodes for them.  It works in a scope, which holds what
it may look at, the position of the walk, and the way to visit the fields below.  The first strategy
of a list that claims a type converts it. -/

namespace Schemata

/-- What does not change during a walk. -/
structure Setting where
  catalog : Catalog
  options : Options
  policy : FieldPolicy

/-- What a strategy sees of a walk. -/
structure Scope extends Setting where
  position : Position
  /-- Converts a field one level further down. -/
  visit : Field → BuildM NodeId

namespace Scope

/-- The written fields of a type.  That the policy was asked is logged. -/
def listFields (scope : Scope) (t : TypeId) : BuildM (List Field) := do
  BuildM.record (.listed t)
  return scope.policy scope.catalog t

/-- The error for a type that no strategy converts. -/
def noStrategy (scope : Scope) (t : TypeId) : CompileError :=
  .noStrategy scope.position.path (scope.catalog.name t)

end Scope

/-- A way to convert some types. -/
structure Strategy where
  /-- The name under which the strategy is listed. -/
  name : String
  /-- Whether the strategy converts a type. -/
  claims : Catalog → TypeId → Bool
  /-- Builds the node of a type. -/
  convert : Scope → TypeId → BuildM NodeId
  /-- Builds the node that stands for a type as the value of a field. -/
  convertField : Scope → Field → BuildM NodeId := fun scope field => convert scope field.type

namespace Strategy

/-- The first strategy that claims a type. -/
def select (strategies : List Strategy) (c : Catalog) (t : TypeId) : Option Strategy :=
  strategies.find? (·.claims c t)

/-- The strategy for the type that the walk has come to. -/
def choose (strategies : List Strategy) (scope : Scope) (t : TypeId) : BuildM Strategy := do
  BuildM.record (.visited scope.position t)
  match select strategies scope.catalog t with
  | some s => return s
  | none => throw (scope.noStrategy t)

end Strategy

end Schemata
