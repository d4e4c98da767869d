/-! # Finite types with written names

A few small types of the domain (built-in types, visibilities, kinds of shape, error codes) are
written as names.  `Named` lists the members of such a type and gives each its name; `ofName?`
reads a name back. -/

namespace Schemata

universe u

/-- A finite type whose members are written as names, in the order of `all`. -/
class Named (α : Type u) where
  /-- The members, in the order in which they are listed to a reader. -/
  all : List α
  /-- The name of a member. -/
  name : α → String

namespace Named

variable {α : Type u} [Named α]

/-- The member with the given name. -/
def ofName? (text : String) : Option α := (all : List α).find? (name · = text)

/-- The names of all members, in order. -/
def names (α : Type u) [Named α] : List String := (all : List α).map name

end Named

end Schemata
