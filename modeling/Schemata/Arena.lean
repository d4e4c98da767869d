import Schemata.Node

/-! # Arenas

An arena owns the nodes of a schema.  It only grows; a stored node can be changed in place. -/

namespace Schemata

/-- The nodes of a schema, each at the place its `NodeId` names. -/
structure Arena where
  nodes : Array Node := #[]
  deriving Repr, DecidableEq, Inhabited

namespace Arena

/-- The number of nodes. -/
def size (a : Arena) : Nat := a.nodes.size

/-- The node at a place. -/
def get? (a : Arena) (id : NodeId) : Option Node := a.nodes[id.index]?

/-- The place that the next node will take. -/
def next (a : Arena) : NodeId := ⟨a.size⟩

/-- The arena with a node more, at its `next` place. -/
def push (a : Arena) (n : Node) : Arena := ⟨a.nodes.push n⟩

/-- The arena with a node changed. -/
def modify (a : Arena) (id : NodeId) (f : Node → Node) : Arena := ⟨a.nodes.modify id.index f⟩

/-- Whether a place is in use. -/
def contains (a : Arena) (id : NodeId) : Bool := id.index < a.size

@[simp] theorem size_push (a : Arena) (n : Node) : (a.push n).size = a.size + 1 := by
  simp [push, size]

@[simp] theorem size_modify (a : Arena) (id : NodeId) (f : Node → Node) :
    (a.modify id f).size = a.size := by
  simp [modify, size]

/-- A stored node is found at its place, and all others stay where they are. -/
theorem get?_push (a : Arena) (n : Node) (id : NodeId) :
    (a.push n).get? id = if id = a.next then some n else a.get? id := by
  obtain ⟨i⟩ := id
  simp [push, get?, next, size, Array.getElem?_push]

/-- A change affects one place only. -/
theorem get?_modify (a : Arena) (id other : NodeId) (f : Node → Node) :
    (a.modify id f).get? other = if id = other then (a.get? other).map f else a.get? other := by
  obtain ⟨i⟩ := id
  obtain ⟨j⟩ := other
  simp [modify, get?, Array.getElem?_modify]

end Arena

end Schemata
