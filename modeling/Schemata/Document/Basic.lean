import Schemata.Arena
import Schemata.TypeId

/-! # Documents

A document is the result of a compilation: an arena that does not change any more, the nodes of the
roots, and the components under their names. -/

namespace Schemata

/-- The result of a compilation. -/
structure Document where
  arena : Arena
  /-- The nodes of the roots, in order. -/
  roots : List NodeId
  /-- The components, in the order in which they were completed. -/
  components : List (String × NodeId)
  /-- The nodes of the types that were completed, in order. -/
  completed : List (TypeId × NodeId)
  /-- What stands before the name of a component in the target of a reference. -/
  refPrefix : String
  deriving Repr, DecidableEq

namespace Document

/-- The node of the first root. -/
def root? (d : Document) : Option NodeId := d.roots.head?

/-- The component with the given name. -/
def component? (d : Document) (name : String) : Option NodeId :=
  (d.components.find? (·.1 = name)).map (·.2)

/-- The node of a completed type. -/
def nodeFor? (d : Document) (t : TypeId) : Option NodeId :=
  (d.completed.find? (·.1 = t)).map (·.2)

/-- What follows `start` in a text that begins with it. -/
def afterStart? (start s : String) : Option String :=
  if start.toList.isPrefixOf s.toList then some (String.ofList (s.toList.drop start.length))
  else none

/-- The node that a node stands for: itself, or the component that it refers to. -/
def resolve (d : Document) (id : NodeId) : Option NodeId := do
  let node ← d.arena.get? id
  if node.isReference then
    let target ← node.target?
    let name ← afterStart? d.refPrefix target
    d.component? name
  else return id

end Document

end Schemata
