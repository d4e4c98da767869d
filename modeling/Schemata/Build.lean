import Schemata.ComponentName
import Schemata.Error
import Schemata.Fixup

/-! # Builds

A build holds all that changes while types are converted: the arena, the progress of expansions, the
names given to components, and a log of what was done.  Actions on a build may fail; what they did
before stays done. -/

namespace Schemata

/-- Something that happened in a build. -/
inductive Event where
  /-- The walk came to a type at a position. -/
  | visited (position : Position) (type : TypeId)
  /-- The field policy was asked about a type. -/
  | listed (type : TypeId)
  /-- A fix-up was run for a completed node. -/
  | patched (fixup : Fixup) (finished : NodeId)
  deriving Repr, DecidableEq

/-- All that changes while types are converted. -/
structure Build where
  arena : Arena := {}
  progress : Progress Fixup := {}
  names : NameTable := {}
  log : Array Event := #[]
  deriving Repr, DecidableEq, Inhabited

/-- An action on a build, which may fail. -/
abbrev BuildM := ExceptT CompileError (StateM Build)

namespace BuildM

/-- Runs an action on a build. -/
def runOn {α : Type} (action : BuildM α) (b : Build) : Except CompileError α × Build :=
  StateT.run (ExceptT.run action) b

/-- Writes an event to the log. -/
def record (e : Event) : BuildM Unit :=
  modify fun b => { b with log := b.log.push e }

/-- Stores a node. -/
def insert (n : Node) : BuildM NodeId :=
  modifyGet fun b => (b.arena.next, { b with arena := b.arena.push n })

/-- The node at a place. -/
def node? (id : NodeId) : BuildM (Option Node) := do
  return (← get).arena.get? id

/-- Gives a property to a stored node. -/
def addProperty (id : NodeId) (name : String) (child : NodeId) : BuildM Unit :=
  modify fun b => { b with arena := b.arena.modify id (·.addProperty name child) }

/-- The stage of a type. -/
def stage (t : TypeId) : BuildM Stage := do
  return (← get).progress.stage t

/-- The component name of a type of the catalog, given now if it has none. -/
def componentName (c : Catalog) (t : TypeId) : BuildM String :=
  modifyGet fun b =>
    let r := b.names.request c t
    (r.1, { b with names := r.2 })

/-- Starts the expansion of a type. -/
def start (c : Catalog) (t : TypeId) : BuildM Unit := do
  let b ← get
  match b.progress.start t with
  | .ok progress => set { b with progress }
  | .error cause => throw (.misuse (c.name t) cause)

/-- Leaves a fix-up for a type that is being expanded. -/
def await (c : Catalog) (t : TypeId) (fixup : Fixup) : BuildM Unit := do
  let b ← get
  match b.progress.await t fixup with
  | .ok progress => set { b with progress }
  | .error cause => throw (.misuse (c.name t) cause)

/-- Completes a type, runs the fix-ups left for it and says how many there were. -/
def complete (c : Catalog) (t : TypeId) (id : NodeId) : BuildM Nat := do
  let b ← get
  match b.progress.complete t id with
  | .ok (fixups, progress) =>
    set { b with
      progress
      arena := Fixup.runAll fixups id b.arena
      log := b.log ++ (fixups.map fun f => Event.patched f id) }
    return fixups.length
  | .error cause => throw (.misuse (c.name t) cause)

variable {α β : Type}

@[simp] theorem runOn_pure (a : α) (b : Build) : (pure a : BuildM α).runOn b = (.ok a, b) := rfl

@[simp] theorem runOn_throw (e : CompileError) (b : Build) :
    (throw e : BuildM α).runOn b = (.error e, b) := rfl

/-- The second action runs on what the first one left, unless that failed. -/
theorem runOn_bind (x : BuildM α) (f : α → BuildM β) (b : Build) :
    (x >>= f).runOn b =
      match x.runOn b with
      | (.ok a, b') => (f a).runOn b'
      | (.error e, b') => (.error e, b') := by
  show (x b >>= fun r => ExceptT.bindCont f r.1 r.2) = _
  show ExceptT.bindCont f (x b).1 (x b).2 = _
  have h : x.runOn b = x b := rfl
  rw [h]
  obtain ⟨r, b'⟩ := x b
  cases r <;> rfl

@[simp] theorem runOn_record (e : Event) (b : Build) :
    (record e).runOn b = (.ok (), { b with log := b.log.push e }) := rfl

@[simp] theorem runOn_insert (n : Node) (b : Build) :
    (insert n).runOn b = (.ok b.arena.next, { b with arena := b.arena.push n }) := rfl

@[simp] theorem runOn_node? (id : NodeId) (b : Build) :
    (node? id).runOn b = (.ok (b.arena.get? id), b) := rfl

@[simp] theorem runOn_addProperty (id : NodeId) (name : String) (child : NodeId) (b : Build) :
    (addProperty id name child).runOn b =
      (.ok (), { b with arena := b.arena.modify id (·.addProperty name child) }) := rfl

@[simp] theorem runOn_stage (t : TypeId) (b : Build) :
    (stage t).runOn b = (.ok (b.progress.stage t), b) := rfl

@[simp] theorem runOn_componentName (c : Catalog) (t : TypeId) (b : Build) :
    (componentName c t).runOn b =
      (.ok (b.names.request c t).1, { b with names := (b.names.request c t).2 }) := rfl

end BuildM

namespace Build

/-- The types the field policy was asked about, in order. -/
def listed (b : Build) : List TypeId :=
  b.log.toList.filterMap fun
    | .listed t => some t
    | _ => none

/-- The fix-ups that were run and the nodes they were run for, in order. -/
def patched (b : Build) : List (Fixup × NodeId) :=
  b.log.toList.filterMap fun
    | .patched f id => some (f, id)
    | _ => none

/-- The positions the walk came to and the types it met there, in order. -/
def visited (b : Build) : List (Position × TypeId) :=
  b.log.toList.filterMap fun
    | .visited p t => some (p, t)
    | _ => none

end Build

end Schemata
