import Schemata.OrderedMap
import Schemata.Scalar

/-! # Nodes of a schema

A node is an object, an array, a scalar, an enumeration or a reference.  Nodes name each other by
`NodeId`, their place in the arena that owns them, so that a node can be stored first and changed
later: a reference without a target stands for a type that is still being expanded. -/

namespace Schemata

/-- The place of a node in its arena. -/
structure NodeId where
  index : Nat
  deriving Repr, DecidableEq, Inhabited

/-- What a node is. -/
inductive Body where
  | object (name : String)
  | array (items : Option NodeId)
  | scalar (type : JsonType) (format : Option String)
  | enumeration (name : String) (values : List String)
  | reference (target : Option String)
  deriving Repr, DecidableEq, Inhabited

/-- A node of a schema: what it is, and the properties it has been given. -/
structure Node where
  body : Body
  properties : OrderedMap NodeId := .empty
  deriving Repr, DecidableEq, Inhabited

namespace Node

/-- An object without properties. -/
def object (name : String) : Node := ⟨.object name, .empty⟩

/-- An array of the items at a node, or of unknown items. -/
def array (items : Option NodeId) : Node := ⟨.array items, .empty⟩

/-- A value of a JSON type, narrowed by a format. -/
def scalar (type : JsonType) (format : Option String) : Node := ⟨.scalar type format, .empty⟩

/-- One of a list of values. -/
def enumeration (name : String) (values : List String) : Node :=
  ⟨.enumeration name values, .empty⟩

/-- A reference to a target. -/
def reference (target : String) : Node := ⟨.reference (some target), .empty⟩

/-- A reference whose target is not known yet. -/
def placeholder : Node := ⟨.reference none, .empty⟩

/-- The node with a property added, or changed in place. -/
def addProperty (n : Node) (name : String) (child : NodeId) : Node :=
  { n with properties := n.properties.insert name child }

/-- The node that takes a node's place when it becomes a reference: nothing of it is kept. -/
def toReference (_ : Node) (target : String) : Node := .reference target

/-- The name, which objects and enumerations have. -/
def name? (n : Node) : Option String :=
  match n.body with
  | .object name | .enumeration name _ => some name
  | _ => none

/-- The items of an array. -/
def items? (n : Node) : Option NodeId :=
  match n.body with
  | .array items => items
  | _ => none

/-- The format of a scalar. -/
def format? (n : Node) : Option String :=
  match n.body with
  | .scalar _ format => format
  | _ => none

/-- The values of an enumeration. -/
def values (n : Node) : List String :=
  match n.body with
  | .enumeration _ values => values
  | _ => []

/-- The target of a reference. -/
def target? (n : Node) : Option String :=
  match n.body with
  | .reference target => target
  | _ => none

/-- The target by which others refer to a node: its name after the common beginning. -/
def refTarget? (n : Node) (refPrefix : String) : Option String := n.name?.map (refPrefix ++ ·)

/-- Whether a node is a reference. -/
def isReference (n : Node) : Bool :=
  match n.body with
  | .reference _ => true
  | _ => false

/-- Whether a node is anything but a reference without a target. -/
def isResolved (n : Node) : Bool :=
  match n.body with
  | .reference target => target.isSome
  | _ => true

end Node

end Schemata
