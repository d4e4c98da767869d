import Schemata.Arena

/-! # Fix-ups

A fix-up is a note left for a type that is being expanded.  Once the type is completed, it turns a
node, usually a placeholder, into a reference. -/

namespace Schemata

/-- The target that a fix-up gives to its node. -/
inductive FixupTarget where
  /-- The name of the completed node after a common beginning; none if that node has no name. -/
  | named (refPrefix : String)
  /-- The same text whatever node was completed. -/
  | fixed (text : String)
  deriving Repr, DecidableEq

/-- A change to make once a type is completed. -/
structure Fixup where
  /-- The node to change, if any. -/
  node : Option NodeId
  target : FixupTarget
  /-- A label by which the fix-up is told from others. -/
  label : Option String := none
  deriving Repr, DecidableEq

namespace Fixup

/-- The target, when the node at `finished` has been completed. -/
def target? (f : Fixup) (finished : NodeId) (a : Arena) : Option String :=
  match f.target with
  | .named refPrefix => (a.get? finished).bind (·.refTarget? refPrefix)
  | .fixed text => some text

/-- Makes the change, when the node at `finished` has been completed. -/
def run (f : Fixup) (finished : NodeId) (a : Arena) : Arena :=
  match f.node, f.target? finished a with
  | some node, some target => a.modify node (·.toReference target)
  | _, _ => a

/-- Makes all changes, in order. -/
def runAll (fixups : List Fixup) (finished : NodeId) (a : Arena) : Arena :=
  fixups.foldl (fun a f => f.run finished a) a

end Fixup

end Schemata
