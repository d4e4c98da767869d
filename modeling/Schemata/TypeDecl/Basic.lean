import Schemata.Scalar

/-! # Declarations of types

A declaration describes one type of the program: its shape, its superclass, its fields and the names
of its methods.  Declarations refer to other types by name; a catalog holds the same data with the
names resolved.  `Shape` and `Member` are therefore written over the kind of reference, `String`
here and a handle there. -/

namespace Schemata

universe u

/-- What a type is made of, where `ρ` refers to another type. -/
inductive Shape (ρ : Type u) where
  /-- One of the built-in types. -/
  | scalar (s : Scalar)
  /-- A fixed array of elements. -/
  | array (element : ρ)
  /-- A collection, whose element type may be unknown. -/
  | collection (element : Option ρ)
  /-- One of a list of names. -/
  | enumeration (variants : List String)
  /-- A composite type with fields. -/
  | record
  deriving Repr, DecidableEq, Inhabited

namespace Shape

/-- The type of the elements, for an array or a collection that knows it. -/
def element? {ρ : Type u} : Shape ρ → Option ρ
  | .array e => some e
  | .collection e => e
  | .scalar _ | .enumeration _ | .record => none

end Shape

/-- Who may use a field.  A field that says nothing is visible in its package. -/
inductive Visibility where
  | everyone
  | subtypes
  | package
  | owner
  deriving Repr, DecidableEq

instance : Inhabited Visibility := ⟨.package⟩

instance : Named Visibility where
  all := [.everyone, .subtypes, .package, .owner]
  name
    | .everyone => "public"
    | .subtypes => "protected"
    | .package => "package"
    | .owner => "private"

/-- A field as declared by a type, where `ρ` refers to the type of its values. -/
structure Member (ρ : Type u) where
  name : String
  type : ρ
  visibility : Visibility := default
  isStatic : Bool := false
  isFinal : Bool := false
  deriving Repr, DecidableEq, Inhabited

/-- The declaration of a type, which refers to other types by name. -/
structure TypeDecl where
  /-- The qualified name. -/
  name : String
  /-- The short name, if it is not to be taken from the qualified one. -/
  simpleName : Option String := none
  shape : Shape String := .record
  superclass : Option String := none
  members : List (Member String) := []
  methods : List String := []
  deriving Repr, DecidableEq, Inhabited

namespace TypeDecl

/-- A record without fields. -/
def record (name : String) : TypeDecl := { name }

/-- An enumeration of the given variants. -/
def enumeration (name : String) (variants : List String) : TypeDecl :=
  { name, shape := .enumeration variants }

/-- An array of the named type. -/
def array (name element : String) : TypeDecl := { name, shape := .array element }

/-- A collection, of the named type if one is given. -/
def collection (name : String) (element : Option String) : TypeDecl :=
  { name, shape := .collection element }

/-- Another name for a built-in type. -/
def scalar (name : String) (s : Scalar) : TypeDecl := { name, shape := .scalar s }

/-- The same type below a superclass. -/
def extending (d : TypeDecl) (superclass : String) : TypeDecl :=
  { d with superclass := some superclass }

/-- The same type under a short name of its own. -/
def called (d : TypeDecl) (simpleName : String) : TypeDecl :=
  { d with simpleName := some simpleName }

/-- The same type with one more field, after those it has. -/
def withMember (d : TypeDecl) (member : Member String) : TypeDecl :=
  { d with members := d.members ++ [member] }

/-- The same type with one more method, after those it has. -/
def withMethod (d : TypeDecl) (method : String) : TypeDecl :=
  { d with methods := d.methods ++ [method] }

/-- What follows the last `.` or `$` of a qualified name. -/
def lastSegment (qualified : String) : String :=
  String.ofList (qualified.toList.reverse.takeWhile fun c => c ≠ '.' && c ≠ '$').reverse

/-- The short name: the declared one, or else the end of the qualified name. -/
def shortName (d : TypeDecl) : String := d.simpleName.getD (lastSegment d.name)

end TypeDecl

end Schemata
