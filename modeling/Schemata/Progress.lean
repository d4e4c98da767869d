import Schemata.TypeId
import Schemata.Node

/-! # Progress of expansions

A record type is absent, then being expanded, then completed with the node that describes it, and
never goes back.  Whoever meets a type while it is being expanded may leave a note; completing the
type hands its notes back in the order in which they were left.  What a note is does not matter
here. -/

namespace Schemata

universe u

/-- How far the expansion of a type has come. -/
inductive Stage where
  | absent
  | expanding
  | completed (node : NodeId)
  deriving Repr, DecidableEq

/-- A call that does not fit the stage of its type. -/
inductive Misuse where
  | alreadyExpanding
  | alreadyCompleted
  | notExpanding
  deriving Repr, DecidableEq

/-- The words for a call that does not fit. -/
def Misuse.message : Misuse → String
  | .alreadyExpanding => "expansion already in progress"
  | .alreadyCompleted => "expansion already completed"
  | .notExpanding => "type is not being expanded"

/-- How far all expansions have come, with notes of type `φ`. -/
structure Progress (φ : Type u) where
  /-- Completed types and their nodes, in order of completion. -/
  completed : List (TypeId × NodeId) := []
  /-- Types being expanded, each with its notes in the order in which they were left. -/
  expanding : List (TypeId × List φ) := []
  deriving Repr, DecidableEq, Inhabited

namespace Progress

variable {φ : Type u}

/-- The node of a completed type. -/
def node? (p : Progress φ) (t : TypeId) : Option NodeId :=
  (p.completed.find? (·.1 = t)).map (·.2)

/-- The notes left for a type that is being expanded. -/
def notes? (p : Progress φ) (t : TypeId) : Option (List φ) :=
  (p.expanding.find? (·.1 = t)).map (·.2)

/-- The stage of a type. -/
def stage (p : Progress φ) (t : TypeId) : Stage :=
  match p.node? t, p.notes? t with
  | some node, _ => .completed node
  | none, some _ => .expanding
  | none, none => .absent

/-- Starts the expansion of an absent type. -/
def start (p : Progress φ) (t : TypeId) : Except Misuse (Progress φ) :=
  match p.stage t with
  | .completed _ => .error .alreadyCompleted
  | .expanding => .error .alreadyExpanding
  | .absent => .ok { p with expanding := p.expanding ++ [(t, [])] }

/-- Leaves a note for a type that is being expanded. -/
def await (p : Progress φ) (t : TypeId) (note : φ) : Except Misuse (Progress φ) :=
  if (p.notes? t).isSome then
    .ok { p with
      expanding := p.expanding.map fun e => if e.1 = t then (e.1, e.2 ++ [note]) else e }
  else .error .notExpanding

/-- Completes a type that is being expanded, and hands its notes back. -/
def complete (p : Progress φ) (t : TypeId) (node : NodeId) :
    Except Misuse (List φ × Progress φ) :=
  match p.notes? t with
  | some notes =>
    .ok (notes, { completed := p.completed ++ [(t, node)],
                  expanding := p.expanding.filter (·.1 ≠ t) })
  | none => .error (if (p.node? t).isSome then .alreadyCompleted else .notExpanding)

/-- The number of notes left for a type. -/
def pendingCount (p : Progress φ) (t : TypeId) : Nat := ((p.notes? t).getD []).length

/-- The types that somebody waits for. -/
def pending (p : Progress φ) : List TypeId :=
  (p.expanding.filter fun e => !e.2.isEmpty).map (·.1)

/-- The least type that somebody waits for. -/
def firstPending? (p : Progress φ) : Option TypeId :=
  (p.pending.map (·.index)).min?.map TypeId.mk

/-- A one-line summary: completed types, types being expanded, and how many notes wait for which. -/
def summary (p : Progress φ) : String :=
  let key (t : TypeId) := s!"TypeKey({t.index})"
  let list (items : List String) := ", ".intercalate items
  let completed := list (p.completed.map (key ·.1))
  let expanding := list (p.expanding.map (key ·.1))
  let pending := list (p.pending.map fun t => s!"{key t}: {p.pendingCount t}")
  "TypeRegistry \x7b completed: [" ++ completed ++ "], in_progress: \x7b" ++ expanding
    ++ "\x7d, pending: \x7b" ++ pending ++ "\x7d \x7d"

end Progress

end Schemata
