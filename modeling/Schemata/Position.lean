/-! # Positions of a walk

A position says where a walk stands below its root: the names on the way, from the root on, and how
many fields or elements deep it is. -/

namespace Schemata

/-- Where a walk stands. -/
structure Position where
  /-- The short name of the root and the names of the fields passed since. -/
  path : List String := []
  /-- The number of fields passed since the root. -/
  depth : Nat := 0
  deriving Repr, DecidableEq, Inhabited

namespace Position

/-- The position at a root. -/
def root (name : String) : Position := { path := [name] }

/-- The position one field further down. -/
def enter (p : Position) (name : String) : Position :=
  { path := p.path ++ [name], depth := p.depth + 1 }

/-- The names of a path, separated by dots. -/
def pathText (path : List String) : String := ".".intercalate path

/-- The path as it is written in messages. -/
def text (p : Position) : String := pathText p.path

@[simp] theorem path_enter (p : Position) (name : String) :
    (p.enter name).path = p.path ++ [name] := rfl

@[simp] theorem depth_enter (p : Position) (name : String) :
    (p.enter name).depth = p.depth + 1 := rfl

end Position

end Schemata
