import Schemata.Catalog.Basic
import Schemata.Text.Lowercase

/-! # Fields

A field policy says which fields of a type are written, and in which order.  The usual one,
`FieldPolicy.accessible`, follows the conventions of beans: a field is written if it is public or if
some type of the ancestor chain has an accessor for it.  A field hides the fields of the same name
further up the chain, whether it is itself written or not. -/

namespace Schemata

/-- A field that is written: its name, the type of its values and the type that declares it. -/
structure Field where
  name : String
  type : TypeId
  declaring : TypeId
  deriving Repr, DecidableEq, Inhabited

/-- The field that stands for the elements of a container. -/
def Field.elements (container element : TypeId) : Field :=
  { name := "items", type := element, declaring := container }

/-- Which fields of a type are written, in order. -/
abbrev FieldPolicy := Catalog → TypeId → List Field

namespace FieldPolicy

/-- The fields declared by a type and its ancestors, nearest type first and in order of
declaration, each with the type that declares it. -/
def declared (c : Catalog) (t : TypeId) : List (TypeId × Member TypeId) :=
  (c.ancestors t).flatMap fun u =>
    (((c.get? u).map (·.members)).getD []).map fun m => (u, m)

/-- The first entry of each name, in order; names in `hidden` have been met before. -/
def nearest (hidden : List String) :
    List (TypeId × Member TypeId) → List (TypeId × Member TypeId)
  | [] => []
  | d :: rest =>
    if d.2.name ∈ hidden then nearest hidden rest
    else d :: nearest (d.2.name :: hidden) rest

/-- The methods of a type and its ancestors. -/
def methods (c : Catalog) (t : TypeId) : List String :=
  (c.ancestors t).flatMap fun u => ((c.get? u).map (·.methods)).getD []

/-- Whether a method is named like an accessor. -/
def isAccessor (method : String) : Bool :=
  "get".toList.isPrefixOf method.toList || "is".toList.isPrefixOf method.toList

/-- The names of the accessors of a type and its ancestors, in lower case. -/
def accessors (c : Catalog) (t : TypeId) : List String :=
  ((methods c t).filter isAccessor).map Text.lowercase

/-- The name, in lower case, that an accessor of the field must have. -/
def accessorName (c : Catalog) (m : Member TypeId) : String :=
  (if c.isBoolean m.type then "is" else "get") ++ Text.lowercase m.name

/-- Whether a field is written: a public field unless it is static or final, any other field if it
has an accessor. -/
def isAccessible (c : Catalog) (accessors : List String) (m : Member TypeId) : Bool :=
  match m.visibility with
  | .everyone => !m.isStatic && !m.isFinal
  | _ => accessors.contains (accessorName c m)

/-- The fields that are public or have an accessor. -/
def accessible : FieldPolicy := fun c t =>
  let accessors := accessors c t
  -- hiding is settled before it is asked which fields are accessible
  ((nearest [] (declared c t)).filter fun d => isAccessible c accessors d.2).map fun d =>
    { name := d.2.name, type := d.2.type, declaring := d.1 }

end FieldPolicy

end Schemata
