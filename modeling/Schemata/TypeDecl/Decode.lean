import Schemata.Json.Value
import Schemata.TypeDecl.Encode

/-! # Declarations from JSON

A declaration is read from an object.  The members that every declaration may have are read where
they stand.  All others are kept, and the shape is made of them once the object has ended: `kind`
tells which shape it is, and a shape takes the member it needs and ignores the rest.

A field may also be written as an array of its members in order, and a shape by itself as an array
that starts with its kind. -/

namespace Schemata

/-! ## Shapes -/

namespace Kind

/-- The kind that a member of a declaration names, or gives by its place in the list of kinds. -/
def ofMember : Json → Except Mismatch Kind
  | .number (.integer (.ofNat n)) =>
    match (Named.all : List Kind)[n]? with
    | some kind => .ok kind
    | none => .error (.wrongValue (.number (.integer n)) "variant index 0 <= i < 5")
  | j => j.asName Kind

end Kind

namespace Shape

/-- The shape of a given kind, from the members of an object. -/
def ofMembers (kind : Kind) (members : List (String × Json)) : Except Mismatch (Shape String) := do
  match kind with
  | .scalar =>
    match ← Json.member? "primitive" (Json.asNamed Scalar) members with
    | some s => return .scalar s
    | none => throw (.missing "primitive")
  | .array =>
    match ← Json.member? "element" Json.asString members with
    | some element => return .array element
    | none => throw (.missing "element")
  | .collection =>
    let element ← Json.member? "element" (Json.asOptional Json.asString) members
    return .collection element.join
  | .enumeration =>
    match ← Json.member? "variants" (Json.asArray Json.asString) members with
    | some variants => return .enumeration variants
    | none => throw (.missing "variants")
  | .record => return .record

/-- The shape of a declaration, from the members it does not know itself. -/
def ofRest (members : List (String × Json)) : Except Mismatch (Shape String) := do
  match ← Json.member? "kind" Kind.ofMember members with
  | some kind => ofMembers kind members
  | none => throw (.missing "kind")

/-- The words for a number of items in an array. -/
def itemCount (n : Nat) : String :=
  if n = 1 then "1 element in sequence" else s!"{n} elements in sequence"

/-- The single item of an array behind the kind, decoded. -/
def onlyItem {α : Type} (f : Json → Except Mismatch α) (absent : Except Mismatch α) :
    List Json → Except Mismatch α
  | [] => absent
  | j :: rest => do
    let a ← f j
    if rest.isEmpty then return a else throw (.wrongLength (rest.length + 1) (itemCount 1))

/-- The error for a shape whose only item is missing. -/
def lacking {α : Type} (name : String) : Except Mismatch α :=
  .error (.wrongLength 0 s!"struct variant TypeShape::{name} with 1 element")

/-- The shape of a given kind, from the items that follow the kind in an array. -/
def ofItems (kind : Kind) (items : List Json) : Except Mismatch (Shape String) :=
  match kind with
  | .scalar => .scalar <$> onlyItem (Json.asNamed Scalar) (lacking "Primitive") items
  | .array => .array <$> onlyItem Json.asString (lacking "Array") items
  | .collection => .collection <$> onlyItem (Json.asOptional Json.asString) (.ok none) items
  | .enumeration => .enumeration <$> onlyItem (Json.asArray Json.asString) (lacking "Enum") items
  | .record =>
    if items.isEmpty then .ok .record else .error (.wrongLength items.length (itemCount 0))

end Shape

namespace Reader

/-- The kind of a shape, by name. -/
def kindName : Reader Kind := do
  fit (memberNamed Kind (← stringAs "variant identifier"))

/-- Reads a shape that stands alone: an object, or an array that starts with the kind. -/
def shape : Reader (Shape String) :=
  let inner := value (maxNesting - 1)
  structured "internally tagged enum TypeShape"
    (do
      let step (state : Option Kind × List (String × Json)) (name : String) := do
        if name = "kind" then return (← once name state.1 kindName, state.2)
        else return (state.1, (name, ← memberValue inner) :: state.2)
      let (kind, members) ← objectBody step (none, [])
      -- the members were gathered last one first
      fit (Shape.ofMembers (← require "kind" kind) members.reverse))
    (do
      let kind ← require "kind" (← item? true kindName)
      let items ← itemsFrom inner ((← get).length + 1) false
      closeArray
      fit (Shape.ofItems kind items))

/-! ## Fields -/

/-- The members of a field that have been read. -/
structure MemberDraft where
  name : Option String := none
  type : Option String := none
  visibility : Option Visibility := none
  isStatic : Option Bool := none
  isFinal : Option Bool := none

/-- The field of a draft; name and type must be there. -/
def MemberDraft.finish (d : MemberDraft) : Reader (Member String) := do
  let name ← require "name" d.name
  let type ← require "type" d.type
  return { name, type, visibility := d.visibility.getD default,
           isStatic := d.isStatic.getD false, isFinal := d.isFinal.getD false }

/-- Reads one member of a field. -/
def MemberDraft.step (d : MemberDraft) (name : String) : Reader MemberDraft := do
  match name with
  | "name" => return { d with name := ← once name d.name string }
  | "type" => return { d with type := ← once name d.type string }
  | "visibility" => return { d with visibility := ← once name d.visibility (named Visibility) }
  | "static" => return { d with isStatic := ← once name d.isStatic bool }
  | "final" => return { d with isFinal := ← once name d.isFinal bool }
  | _ =>
    memberValue skip
    return d

/-- Reads a field. -/
def field : Reader (Member String) :=
  let expected := "struct FieldDescriptor"
  let required (n : Nat) (a : Option String) : Reader String :=
    match a with
    | some a => pure a
    | none => unfit (.wrongLength n (expected ++ " with 5 elements"))
  structured expected
    (do (← objectBody MemberDraft.step {}).finish)
    (do
      let name ← required 0 (← item? true string)
      let type ← required 1 (← item? false string)
      let visibility ← item? false (named Visibility)
      let isStatic ← item? false bool
      let isFinal ← item? false bool
      closeArray
      return { name, type, visibility := visibility.getD default,
               isStatic := isStatic.getD false, isFinal := isFinal.getD false })

/-! ## Declarations -/

/-- The members of a declaration that have been read.  `rest` holds those that a declaration does
not know itself, last one first. -/
structure DeclDraft where
  name : Option String := none
  simpleName : Option (Option String) := none
  superclass : Option (Option String) := none
  members : Option (List (Member String)) := none
  methods : Option (List String) := none
  rest : List (String × Json) := []

/-- The declaration of a draft; name and shape must be there. -/
def DeclDraft.finish (d : DeclDraft) : Reader TypeDecl := do
  let name ← require "name" d.name
  let shape ← fit (Shape.ofRest d.rest.reverse)
  return { name, simpleName := d.simpleName.join, shape, superclass := d.superclass.join,
           members := d.members.getD [], methods := d.methods.getD [] }

/-- Reads one member of a declaration.  The values of unknown members are kept, and may be nested
`room` deep. -/
def DeclDraft.step (room : Nat) (d : DeclDraft) (name : String) : Reader DeclDraft := do
  match name with
  | "name" => return { d with name := ← once name d.name string }
  | "simple_name" => return { d with simpleName := ← once name d.simpleName (optional string) }
  | "superclass" => return { d with superclass := ← once name d.superclass (optional string) }
  | "fields" => return { d with members := ← once name d.members (array field) }
  | "methods" => return { d with methods := ← once name d.methods (array string) }
  | _ => return { d with rest := (name, ← memberValue (value room)) :: d.rest }

/-- Reads a declaration inside `depth` brackets. -/
def typeDecl (depth : Nat) : Reader TypeDecl := do
  if (← peekSome) = .char '{' then do
    drop
    (← objectBody (DeclDraft.step (maxNesting - 1 - depth)) {}).finish
  else refuse "struct TypeDescriptor"

/-- Reads a list of declarations: an object with the member `types`, or an array with that list as
its only item. -/
def typeDecls : Reader (List TypeDecl) :=
  let expected := "struct CatalogDocument"
  let types := array (typeDecl 2)
  structured expected
    (do
      let step (state : Option (List TypeDecl)) (name : String) := do
        if name = "types" then once name state types
        else
          memberValue skip
          return state
      require "types" (← objectBody step none))
    (do
      match ← item? true types with
      | some decls =>
        closeArray
        return decls
      | none => unfit (.wrongLength 0 (expected ++ " with 1 element")))

end Reader

end Schemata
