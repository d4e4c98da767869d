import Schemata.Json.Basic
import Schemata.TypeDecl.Basic

/-! # Declarations as JSON

A declaration is written as one object: its names, its kind with the member that goes with the kind,
and what else it has.  Absent and empty members are left out, and so are flags that are not set. -/

namespace Schemata

/-- The kinds of shape. -/
inductive Kind where
  | scalar
  | array
  | collection
  | enumeration
  | record
  deriving Repr, DecidableEq, Inhabited

instance : Named Kind where
  all := [.scalar, .array, .collection, .enumeration, .record]
  name
    | .scalar => "primitive"
    | .array => "array"
    | .collection => "collection"
    | .enumeration => "enum"
    | .record => "record"

/-- The kind of a shape. -/
def Shape.kind {ρ : Type} : Shape ρ → Kind
  | .scalar _ => .scalar
  | .array _ => .array
  | .collection _ => .collection
  | .enumeration _ => .enumeration
  | .record => .record

/-- A member that is left out if its value is absent. -/
def Json.optionalString (name : String) : Option String → List (String × Json)
  | none => []
  | some s => [(name, .string s)]

/-- A member that is left out if its list is empty. -/
def Json.optionalArray (name : String) : List Json → List (String × Json)
  | [] => []
  | items => [(name, .array items)]

/-- A flag that is left out if it is not set. -/
def Json.flag (name : String) (value : Bool) : List (String × Json) :=
  if value then [(name, .bool true)] else []

/-- The name of a member of a type. -/
def Json.ofNamed {α : Type} [Named α] (a : α) : Json := .string (Named.name a)

/-- The member that goes with the kind of a shape. -/
def Shape.content : Shape String → List (String × Json)
  | .scalar s => [("primitive", .ofNamed s)]
  | .array element => [("element", .string element)]
  | .collection element => Json.optionalString "element" element
  | .enumeration variants => [("variants", .strings variants)]
  | .record => []

/-- The members that describe a shape. -/
def Shape.encode (s : Shape String) : List (String × Json) :=
  ("kind", .ofNamed s.kind) :: s.content

/-- A field as JSON. -/
def Member.encode (m : Member String) : Json :=
  .object ([("name", .string m.name), ("type", .string m.type),
    ("visibility", .ofNamed m.visibility)] ++ Json.flag "static" m.isStatic
    ++ Json.flag "final" m.isFinal)

namespace TypeDecl

/-- A declaration as JSON. -/
def encode (d : TypeDecl) : Json :=
  .object (("name", .string d.name) :: Json.optionalString "simple_name" d.simpleName
    ++ d.shape.encode ++ Json.optionalString "superclass" d.superclass
    ++ Json.optionalArray "fields" (d.members.map Member.encode)
    ++ Json.optionalArray "methods" (d.methods.map .string))

/-- A list of declarations as JSON. -/
def encodeAll (decls : List TypeDecl) : Json :=
  .object [("types", .array (decls.map encode))]

end TypeDecl

end Schemata
