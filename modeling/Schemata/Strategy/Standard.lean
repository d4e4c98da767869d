import Schemata.Strategy.Basic

/-! # The standard strategies

Built-in types, arrays, collections and enumerations each have a strategy that claims exactly their
shape; the strategy for records claims all the rest.  Only records become components: a record is
expanded once, and a field whose type is a record holds a reference to it. -/

namespace Schemata.Strategy

/-- Built-in types become scalars. -/
def scalar : Strategy where
  name := "primitive-convertor"
  claims c t :=
    match c.shape? t with
    | some (.scalar _) => true
    | _ => false
  convert scope t :=
    match scope.catalog.shape? t with
    | some (.scalar s) => BuildM.insert (.scalar s.jsonType s.format)
    | _ => throw (scope.noStrategy t)

/-- Arrays become arrays of their elements. -/
def array : Strategy where
  name := "array-convertor"
  claims c t :=
    match c.shape? t with
    | some (.array _) => true
    | _ => false
  convert scope t := do
    match scope.catalog.shape? t with
    | some (.array element) =>
      let items ← scope.visit (.elements t element)
      BuildM.insert (.array (some items))
    | _ => throw (scope.noStrategy t)

/-- Collections become arrays, of unknown items if the element type is unknown. -/
def collection : Strategy where
  name := "collection-convertor"
  claims c t :=
    match c.shape? t with
    | some (.collection _) => true
    | _ => false
  convert scope t := do
    match scope.catalog.shape? t with
    | some (.collection (some element)) =>
      let items ← scope.visit (.elements t element)
      BuildM.insert (.array (some items))
    | some (.collection none) => BuildM.insert (.array none)
    | _ => throw (scope.noStrategy t)

/-- Enumerations keep their variants and go under their short name. -/
def enumeration : Strategy where
  name := "enum-convertor"
  claims c t :=
    match c.shape? t with
    | some (.enumeration _) => true
    | _ => false
  convert scope t :=
    match scope.catalog.shape? t with
    | some (.enumeration variants) =>
      BuildM.insert (.enumeration (scope.catalog.simpleName t) variants)
    | _ => throw (scope.noStrategy t)

/-- Leaves a placeholder for a type that is being expanded. -/
def placeholderFor (scope : Scope) (t : TypeId) : BuildM NodeId := do
  let id ← BuildM.insert .placeholder
  BuildM.await scope.catalog t { node := some id, target := .named scope.options.refPrefix }
  return id

/-- Expands a record: stores its object, visits its fields in order, and completes it. -/
def expand (scope : Scope) (t : TypeId) : BuildM NodeId := do
  BuildM.start scope.catalog t
  -- the name is given and the object stored before any field is visited
  let name ← BuildM.componentName scope.catalog t
  let id ← BuildM.insert (.object name)
  let fields ← scope.listFields t
  fields.forM fun field => do
    let child ← scope.visit field
    BuildM.addProperty id field.name child
  let _ ← BuildM.complete scope.catalog t id
  return id

/-- The node of a record: the finished one, a placeholder while it is being expanded, or a new
one. -/
def convertRecord (scope : Scope) (t : TypeId) : BuildM NodeId := do
  match ← BuildM.stage t with
  | .completed id => return id
  | .expanding => placeholderFor scope t
  | .absent => expand scope t

/-- A node that refers to the given one: itself if it is a reference or has no name, else a new
reference. -/
def referTo (scope : Scope) (id : NodeId) : BuildM NodeId := do
  match ← BuildM.node? id with
  | some node =>
    if node.isReference then return id
    else
      match node.refTarget? scope.options.refPrefix with
      | some target => BuildM.insert (.reference target)
      | none => return id
  | none => return id

/-- Whatever is none of the other shapes is a record. -/
def record : Strategy where
  name := "bean-convertor"
  claims c t :=
    !(scalar.claims c t || array.claims c t || collection.claims c t || enumeration.claims c t)
  convert := convertRecord
  convertField scope field := do
    referTo scope (← convertRecord scope field.type)

/-- The five standard strategies. -/
def standard : List Strategy := [scalar, array, collection, enumeration, record]

end Schemata.Strategy
