import Schemata.Strategy.Basic

/-! # Walks

A walk converts a type, the types of its fields, and so on, down to a limit.  `Walk.visit` recurses
on the number of levels that are left, so a walk comes to an end whatever the strategies do. -/

namespace Schemata.Walk

/-- Converts a field of the type at a position, with `room` levels left below that position.  The
field itself is one level further down. -/
def visit (strategies : List Strategy) (setting : Setting) :
    (room : Nat) → Position → Field → BuildM NodeId
  | 0, position, field =>
    throw (.tooDeep (position.enter field.name).path setting.options.maxDepth)
  | room + 1, position, field => do
    let position := position.enter field.name
    let scope : Scope := { setting with position, visit := visit strategies setting room position }
    let strategy ← Strategy.choose strategies scope field.type
    strategy.convertField scope field

/-- The scope at a position. -/
def scopeAt (strategies : List Strategy) (setting : Setting) (position : Position) : Scope :=
  { setting with
    position
    visit := visit strategies setting (setting.options.maxDepth - position.depth) position }

/-- Converts the type at a position. -/
def dispatch (strategies : List Strategy) (scope : Scope) (t : TypeId) : BuildM NodeId := do
  let strategy ← Strategy.choose strategies scope t
  strategy.convert scope t

end Schemata.Walk
