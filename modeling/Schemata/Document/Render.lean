import Schemata.Document.Basic
import Schemata.Json.Basic

/-! # Documents as JSON

`Document.render` writes the roots and the components of a document.  A node is written with all
nodes below it; references are written by their targets, so that nothing below a reference is
followed. -/

namespace Schemata

/-- The members that describe a node, where `child` describes the nodes below it. -/
def Node.render (child : NodeId → Json) (n : Node) : List (String × Json) :=
  match n.body with
  | .object _ =>
    [("type", .string "object"),
     ("properties", .object (n.properties.entries.map fun p => (p.1, child p.2)))]
  | .array none => [("type", .string "array")]
  | .array (some items) => [("type", .string "array"), ("items", child items)]
  | .scalar type none => [("type", .string (Named.name type))]
  | .scalar type (some format) =>
    [("type", .string (Named.name type)), ("format", .string format)]
  | .enumeration _ values => [("type", .string "string"), ("enum", .strings values)]
  | .reference none => []
  | .reference (some target) => [("$ref", .string target)]

/-- A node and the nodes below it, at most `levels` of them on a way down.  No way down without a
repetition has more levels than the arena has nodes. -/
def Arena.render (a : Arena) : (levels : Nat) → NodeId → Json
  | 0, _ => .null
  | levels + 1, id =>
    match a.get? id with
    | some n => .object (n.render (a.render levels))
    | none => .null

namespace Document

/-- The description of a node. -/
def renderNode (d : Document) (id : NodeId) : Json := d.arena.render d.arena.size id

/-- Whether a node is a component. -/
def isComponent (d : Document) (id : NodeId) : Bool := d.components.any (·.2 = id)

/-- The description of a root: a reference if it is a component, else the node itself. -/
def renderRoot (d : Document) (id : NodeId) : Json :=
  match (d.arena.get? id).bind (·.refTarget? d.refPrefix) with
  | some target =>
    if d.isComponent id then .object [("$ref", .string target)] else d.renderNode id
  | none => d.renderNode id

/-- The document as JSON. -/
def render (d : Document) : Json :=
  let schemas := OrderedMap.ofList (d.components.map fun p => (p.1, d.renderNode p.2))
  .object [
    ("roots", .array (d.roots.map d.renderRoot)),
    ("components", .object [("schemas", .ofMap schemas)])]

end Document

end Schemata
