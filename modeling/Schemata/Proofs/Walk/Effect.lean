import Schemata.Walk
import Schemata.Strategy.Standard
import Schemata.Proofs.Fixup
import Schemata.Proofs.Progress

/-!
# What the steps of a walk do to a build

A walk with the standard strategies changes a build by a few kinds of effects only.  Each is named
here as a function on builds, and the actions of the strategies are described by them.

## Key results

- `runOn_placeholderFor`: a type that is being expanded is put off
- `runOn_referTo`: a node is referred to
- `runOn_start` / `runOn_complete`: the ends of an expansion
-/

namespace Schemata

namespace Build

/-- The walk came to a type. -/
def visit (b : Build) (p : Position) (t : TypeId) : Build :=
  { b with log := b.log.push (.visited p t) }

/-- A node more is stored. -/
def store (b : Build) (n : Node) : Build := { b with arena := b.arena.push n }

/-- A placeholder is stored, and a fix-up waits for its type. -/
def defer (b : Build) (refPrefix : String) (t : TypeId) : Build :=
  { b with
    arena := b.arena.push .placeholder
    progress := b.progress.noted t (.naming refPrefix b.arena.next) }

/-- The expansion of a record begins: it has a name and an object, and its fields are asked for. -/
def openRecord (b : Build) (c : Catalog) (t : TypeId) : Build where
  arena := b.arena.push (.object (b.names.request c t).1)
  progress := b.progress.started t
  names := (b.names.request c t).2
  log := b.log.push (.listed t)

/-- An object is given a property. -/
def setProperty (b : Build) (object : NodeId) (name : String) (child : NodeId) : Build :=
  { b with arena := b.arena.modify object (·.addProperty name child) }

/-- The expansion of a record ends: `notes` are the fix-ups that wait for it. -/
def closeRecord (b : Build) (t : TypeId) (object : NodeId) (notes : List Fixup) : Build :=
  { b with
    arena := Fixup.runAll notes object b.arena
    progress := b.progress.finished t object
    log := b.log ++ notes.map fun f => Event.patched f object }

/-- A node is referred to: what is itself a reference or has no name stands for itself. -/
def refer (b : Build) (refPrefix : String) (id : NodeId) : NodeId × Build :=
  match b.arena.get? id with
  | some node =>
    if node.isReference then (id, b)
    else
      match node.refTarget? refPrefix with
      | some target => (b.arena.next, b.store (.reference target))
      | none => (id, b)
  | none => (id, b)

variable {b : Build} {t u : TypeId} {object : NodeId} {notes : List Fixup}

@[simp] theorem arena_visit (b : Build) (p : Position) (t : TypeId) :
    (b.visit p t).arena = b.arena := rfl

/-! ## What the policy is asked about -/

@[simp] theorem listed_visit (b : Build) (p : Position) (t : TypeId) :
    (b.visit p t).listed = b.listed := by
  simp [listed, visit]

theorem listed_openRecord (c : Catalog) : (b.openRecord c t).listed = b.listed ++ [t] := by
  simp [listed, openRecord]

theorem listed_closeRecord : (b.closeRecord t object notes).listed = b.listed := by
  simp [listed, closeRecord, List.filterMap_map]

/-! ## Fix-ups that wait, and completed types -/

/-- No fix-up waits for a record that was just opened. -/
theorem notes?_openRecord (c : Catalog) (h : b.progress.stage t = .absent) :
    -- an absent type has no fix-ups, so it begins with none
    (b.openRecord c t).progress.notes? t = some [] := by
  simp [openRecord, Progress.notes?_started, (Progress.stage_eq_absent_iff.mp h).2]

theorem notes?_openRecord_of_some (c : Catalog) (h : b.progress.notes? u = some notes) :
    (b.openRecord c t).progress.notes? u = some notes := by
  simp [openRecord, Progress.notes?_started, h]

/-- A type that is put off has one fix-up more. -/
theorem notes?_defer (refPrefix : String) : (b.defer refPrefix t).progress.notes? u =
    if t = u then (b.progress.notes? u).map (· ++ [.naming refPrefix b.arena.next])
    else b.progress.notes? u :=
  Progress.notes?_noted

theorem notes?_closeRecord (h : t ≠ u) :
    (b.closeRecord t object notes).progress.notes? u = b.progress.notes? u := by
  rw [closeRecord, Progress.notes?_finished, if_neg h]

theorem completed_closeRecord :
    (b.closeRecord t object notes).progress.completed = b.progress.completed ++ [(t, object)] :=
  rfl

theorem mem_completed_closeRecord :
    (t, object) ∈ (b.closeRecord t object notes).progress.completed :=
  List.mem_append_right _ (List.mem_singleton_self _)

theorem mem_completed_closeRecord_of_mem {e : TypeId × NodeId} (h : e ∈ b.progress.completed) :
    e ∈ (b.closeRecord t object notes).progress.completed :=
  List.mem_append_left _ h

/-! ## Referring to a node -/

/-- A reference stands for itself. -/
theorem refer_of_reference {id : NodeId} {target : Option String} (refPrefix : String)
    (h : b.arena.body? id = some (.reference target)) : b.refer refPrefix id = (id, b) := by
  obtain ⟨n, hn, hbody⟩ := Arena.exists_get?_of_body? h
  simp only [refer, hn, Node.isReference, hbody, if_true]

/-- Referring to a node stores one node at most. -/
theorem refer_eq_or_store (b : Build) (refPrefix : String) (id : NodeId) :
    (b.refer refPrefix id).2 = b ∨ ∃ n, (b.refer refPrefix id).2 = b.store n := by
  -- on whether there is a node, whether it is a reference, and whether it has a name
  unfold refer
  split
  · split
    · exact .inl rfl
    · split
      · exact .inr ⟨_, rfl⟩
      · exact .inl rfl
  · exact .inl rfl

theorem progress_refer (b : Build) (refPrefix : String) (id : NodeId) :
    (b.refer refPrefix id).2.progress = b.progress := by
  rcases b.refer_eq_or_store refPrefix id with h | ⟨n, h⟩ <;> simp only [h, store]

theorem names_refer (b : Build) (refPrefix : String) (id : NodeId) :
    (b.refer refPrefix id).2.names = b.names := by
  rcases b.refer_eq_or_store refPrefix id with h | ⟨n, h⟩ <;> simp only [h, store]

/-- An object is referred to by its name. -/
theorem refer_of_object {id : NodeId} {name : String} (refPrefix : String)
    (h : b.arena.body? id = some (.object name)) :
    b.refer refPrefix id = (b.arena.next, b.store (.reference (refPrefix ++ name))) := by
  obtain ⟨n, hn, hbody⟩ := Arena.exists_get?_of_body? h
  simp only [refer, hn, Node.isReference, Node.refTarget?, Node.name?, hbody, Option.map_some]
  rfl

end Build

namespace BuildM

variable {α β : Type} {b b' : Build} {t : TypeId}

theorem runOn_bind_ok {x : BuildM α} {f : α → BuildM β} {a : α} (h : x.runOn b = (.ok a, b')) :
    (x >>= f).runOn b = (f a).runOn b' := by
  rw [runOn_bind, h]

theorem runOn_bind_error {x : BuildM α} {f : α → BuildM β} {e : CompileError}
    (h : x.runOn b = (.error e, b')) : (x >>= f).runOn b = (.error e, b') := by
  -- an error ends the sequence with the build of its first part
  rw [runOn_bind, h]

theorem runOn_get (b : Build) : (get : BuildM Build).runOn b = (.ok b, b) := rfl

theorem runOn_start (c : Catalog) (h : b.progress.stage t = .absent) :
    (start c t).runOn b = (.ok (), { b with progress := b.progress.started t }) := by
  rw [start, runOn_bind_ok (runOn_get b), Progress.start_of_absent h]
  rfl

private theorem runOn_await (c : Catalog) (f : Fixup) (h : (b.progress.notes? t).isSome) :
    (await c t f).runOn b = (.ok (), { b with progress := b.progress.noted t f }) := by
  rw [await, runOn_bind_ok (runOn_get b), Progress.await_of_isSome h]
  rfl

theorem runOn_complete (c : Catalog) (object : NodeId) {notes : List Fixup}
    (h : b.progress.notes? t = some notes) :
    (complete c t object).runOn b = (.ok notes.length, b.closeRecord t object notes) := by
  rw [complete, runOn_bind_ok (runOn_get b), Progress.complete_of_notes h]
  rfl

/-- A type that is being expanded is put off. -/
theorem runOn_placeholderFor (scope : Scope) (h : (b.progress.notes? t).isSome) :
    (Strategy.placeholderFor scope t).runOn b =
      (.ok b.arena.next, b.defer scope.options.refPrefix t) := by
  -- storing the placeholder leaves the progress alone
  have hawait := runOn_await (b := b.store .placeholder) scope.catalog
    (.naming scope.options.refPrefix b.arena.next) h
  rw [Strategy.placeholderFor, runOn_bind_ok (runOn_insert _ b)]
  exact runOn_bind_ok hawait

/-- Referring to a node does not fail. -/
theorem runOn_referTo (scope : Scope) (id : NodeId) (b : Build) :
    (Strategy.referTo scope id).runOn b =
      (.ok (b.refer scope.options.refPrefix id).1, (b.refer scope.options.refPrefix id).2) := by
  rw [Strategy.referTo, runOn_bind, runOn_node?]
  -- both sides look the node up, and then ask it the same questions
  simp only [Build.refer]
  cases b.arena.get? id with
  | none => rfl
  | some node =>
    by_cases hr : node.isReference
    · simp only [hr, if_true]; rfl
    · simp only [hr]
      cases node.refTarget? scope.options.refPrefix <;> rfl

end BuildM

end Schemata
