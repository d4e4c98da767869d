import Schemata.TypeId
import Schemata.TypeDecl.Basic

/-! # Catalogs

A catalog lists the built-in types and after them the declared ones, with every reference resolved
to a `TypeId`.  Reading a catalog is total: a handle of another catalog finds nothing. -/

namespace Schemata

/-- A type of a catalog. -/
structure TypeDef where
  /-- The qualified name, which no other type of the catalog has. -/
  name : String
  simpleName : String
  shape : Shape TypeId
  superclass : Option TypeId := none
  members : List (Member TypeId) := []
  methods : List String := []
  deriving Repr, DecidableEq, Inhabited

/-- A built-in type goes under one name only. -/
def TypeDef.ofScalar (s : Scalar) : TypeDef :=
  { name := s.name, simpleName := s.name, shape := .scalar s }

/-- The types a program knows, built-in types first. -/
structure Catalog where
  types : Array TypeDef
  deriving Repr, DecidableEq

namespace Catalog

/-- The built-in types, which every catalog starts with. -/
def builtins : List TypeDef := Scalar.all.map TypeDef.ofScalar

/-- The number of types, built-in ones included. -/
def size (c : Catalog) : Nat := c.types.size

/-- The type behind a handle. -/
def get? (c : Catalog) (t : TypeId) : Option TypeDef := c.types[t.index]?

/-- The handle of the type with the given qualified name. -/
def lookup (c : Catalog) (name : String) : Option TypeId :=
  (c.types.findIdx? (·.name = name)).map TypeId.mk

/-- The handle of a built-in type. -/
def scalar (s : Scalar) : TypeId := ⟨s.index⟩

/-- All handles, in order. -/
def ids (c : Catalog) : List TypeId := (List.range c.size).map TypeId.mk

/-- The shape of a type. -/
def shape? (c : Catalog) (t : TypeId) : Option (Shape TypeId) := (c.get? t).map (·.shape)

/-- The qualified name of a type. -/
def name (c : Catalog) (t : TypeId) : String := ((c.get? t).map (·.name)).getD ""

/-- The short name of a type. -/
def simpleName (c : Catalog) (t : TypeId) : String := ((c.get? t).map (·.simpleName)).getD ""

/-- The superclass of a type. -/
def superclass? (c : Catalog) (t : TypeId) : Option TypeId := (c.get? t).bind (·.superclass)

/-- The type of a type's elements. -/
def element? (c : Catalog) (t : TypeId) : Option TypeId := (c.get? t).bind (·.shape.element?)

/-- Whether a type is the built-in `boolean` or another name for it. -/
def isBoolean (c : Catalog) (t : TypeId) : Bool := c.shape? t = some (.scalar .boolean)

/-- The handles met from `t` by following `next`, at most `steps` times. -/
def chain (next : TypeId → Option TypeId) : (steps : Nat) → (t : TypeId) → List TypeId
  | 0, t => [t]
  | steps + 1, t =>
    match next t with
    | none => [t]
    | some u => t :: chain next steps u

/-- A type and its superclasses, nearest first.  In a resolved catalog the chain is shorter than the
catalog, so the bound cuts nothing off. -/
def ancestors (c : Catalog) (t : TypeId) : List TypeId := chain c.superclass? c.size t

end Catalog

end Schemata
