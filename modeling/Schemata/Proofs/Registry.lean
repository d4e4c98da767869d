import Mathlib.Data.Finmap
import Mathlib.Data.Finset.Max
import Schemata.Progress

/-!
# Registries

A registry keeps the progress of expansions in four containers: a map from completed types to their
nodes, the order in which they were completed, the set of the types that are being expanded, and a
map from types to the notes left for them.  Nothing in their types keeps the four in step.

A call changes the containers one after the other.  Adding a type to a set tells whether it was new
there, and taking it out tells whether it was there; both change the set first, and the answer is
looked at afterwards.  So a call that turns out not to fit has already been at work, and that it
changed nothing is a theorem.

## Key results

- `start_of_not_absent` / `await_of_notMem` / `complete_of_notMem`: a call that does not fit changes
  nothing
- `Valid.started`, `Valid.pushNote`, `Valid.finished`: a call that fits keeps the containers in step
- `listed?_eq_some_iff`: the completed types can be listed if none of them misses its node
-/

namespace Schemata

/-- How far all expansions have come, in four containers. -/
structure Registry (φ : Type) where
  /-- The nodes of completed types. -/
  completed : Finmap fun _ : TypeId => NodeId := ∅
  /-- Types, in the order in which they were completed. -/
  order : List TypeId := []
  /-- The types that are being expanded. -/
  expanding : Finset TypeId := ∅
  /-- The notes left for types, in the order in which they were left. -/
  pending : Finmap fun _ : TypeId => List φ := ∅

namespace Registry

variable {φ : Type}

/-! ## Calls -/

/-- Adds a type to those that are being expanded, and says whether it is new there. -/
def insertExpanding (r : Registry φ) (t : TypeId) : Bool × Registry φ :=
  (decide (t ∉ r.expanding), { r with expanding := insert t r.expanding })

/-- Takes a type out of those that are being expanded, and says whether it was there. -/
def removeExpanding (r : Registry φ) (t : TypeId) : Bool × Registry φ :=
  (decide (t ∈ r.expanding), { r with expanding := r.expanding.erase t })

/-- Adds a note to the entry of its type, which is made if there is none. -/
def pushNote (r : Registry φ) (t : TypeId) (note : φ) : Registry φ :=
  { r with pending := r.pending.insert t ((r.pending.lookup t).getD [] ++ [note]) }

/-- Takes out the entry with the notes of a type. -/
def takeNotes (r : Registry φ) (t : TypeId) : List φ × Registry φ :=
  let taken := r.pending.extract t
  (taken.1.getD [], { r with pending := taken.2 })

/-- Starts the expansion of a type. -/
def start (r : Registry φ) (t : TypeId) : Except Misuse Unit × Registry φ :=
  if t ∈ r.completed then (.error .alreadyCompleted, r)
  else
    match r.insertExpanding t with
    | (false, r) => (.error .alreadyExpanding, r)
    | (true, r) => (.ok (), r)

/-- Leaves a note for a type. -/
def await (r : Registry φ) (t : TypeId) (note : φ) : Except Misuse Unit × Registry φ :=
  if t ∉ r.expanding then (.error .notExpanding, r)
  else (.ok (), r.pushNote t note)

/-- Completes a type, and hands its notes back. -/
def complete (r : Registry φ) (t : TypeId) (node : NodeId) :
    Except Misuse (List φ) × Registry φ :=
  match r.removeExpanding t with
  | (false, r) => (.error (if t ∈ r.completed then .alreadyCompleted else .notExpanding), r)
  | (true, r) =>
    let r := { r with completed := r.completed.insert t node }
    let r := { r with order := r.order ++ [t] }
    let taken := r.takeNotes t
    (.ok taken.1, taken.2)

/-! ## Questions -/

/-- The stage of a type. -/
def stage (r : Registry φ) (t : TypeId) : Stage :=
  match r.completed.lookup t with
  | some node => .completed node
  | none => if t ∈ r.expanding then .expanding else .absent

/-- The number of notes left for a type. -/
def pendingCount (r : Registry φ) (t : TypeId) : Nat := ((r.pending.lookup t).getD []).length

/-- The types with a note that waits. -/
def waiting (r : Registry φ) : Finset TypeId :=
  r.pending.keys.filter fun t => r.pendingCount t ≠ 0

/-- The least type with a note that waits. -/
def firstPending? (r : Registry φ) : Option TypeId :=
  if h : (r.waiting.image TypeId.index).Nonempty then
    some ⟨(r.waiting.image TypeId.index).min' h⟩
  else none

/-- The completed types with their nodes, in order of completion.  Every node is looked up; nothing
is listed if one is missing. -/
def listed? (r : Registry φ) : Option (List (TypeId × NodeId)) :=
  r.order.mapM fun t => (r.completed.lookup t).map (t, ·)

/-! ## Results of the calls -/

variable {r : Registry φ} {t u : TypeId} {node : NodeId} {note : φ}

/-- A type is completed when the map has a node for it. -/
theorem stage_eq_completed_iff :
    r.stage t = .completed node ↔ r.completed.lookup t = some node := by
  unfold stage
  cases r.completed.lookup t with
  | some id => simp
  | none => by_cases h : t ∈ r.expanding <;> simp [h]

/-- A type is absent when it is in neither of the first two containers that tell types apart. -/
theorem stage_eq_absent_iff : r.stage t = .absent ↔ t ∉ r.completed ∧ t ∉ r.expanding := by
  rw [← Finmap.lookup_eq_none, stage]
  cases r.completed.lookup t <;> simp

/-- A type more is being expanded. -/
def started (r : Registry φ) (t : TypeId) : Registry φ :=
  { r with expanding := insert t r.expanding }

/-- A type has gone from those being expanded to the completed ones, and its notes are gone. -/
def finished (r : Registry φ) (t : TypeId) (node : NodeId) : Registry φ where
  completed := r.completed.insert t node
  order := r.order ++ [t]
  expanding := r.expanding.erase t
  pending := r.pending.erase t

/-- Starting an absent type adds it to the set. -/
theorem start_of_absent (hc : t ∉ r.completed) (he : t ∉ r.expanding) :
    r.start t = (.ok (), r.started t) := by
  simp [start, insertExpanding, started, hc, he]

/-- Leaving a note for a type in the set adds it to the entry of the type. -/
theorem await_of_mem (he : t ∈ r.expanding) : r.await t note = (.ok (), r.pushNote t note) := by
  simp [await, he]

/-- Completing a type in the set moves it, and hands back the notes of its entry. -/
theorem complete_of_mem (he : t ∈ r.expanding) :
    r.complete t node = (.ok ((r.pending.lookup t).getD []), r.finished t node) := by
  simp [complete, removeExpanding, takeNotes, finished, he, Finmap.extract_eq_lookup_erase]

/-! ## Calls that do not fit -/

/-- A type that is not absent cannot be started, and stays where it is. -/
theorem start_of_not_absent (h : r.stage t ≠ .absent) :
    r.start t =
      (.error (if t ∈ r.completed then .alreadyCompleted else .alreadyExpanding), r) := by
  by_cases hc : t ∈ r.completed
  · simp [start, hc]
  · have he : t ∈ r.expanding := by
      by_contra he
      exact h (stage_eq_absent_iff.mpr ⟨hc, he⟩)
    -- the type is added to a set that it is in already
    simp [start, insertExpanding, hc, he]

/-- No note can be left for a type that is not being expanded. -/
theorem await_of_notMem (he : t ∉ r.expanding) : r.await t note = (.error .notExpanding, r) := by
  simp [await, he]

/-- A type that is not being expanded cannot be completed, and stays where it is. -/
theorem complete_of_notMem (he : t ∉ r.expanding) :
    r.complete t node =
      (.error (if t ∈ r.completed then .alreadyCompleted else .notExpanding), r) := by
  -- the type is taken out of a set that it is not in
  simp [complete, removeExpanding, he, Finset.erase_eq_of_notMem]

/-! ## Containers in step -/

/-- The four containers fit together. -/
structure Valid (r : Registry φ) : Prop where
  /-- No type is both being expanded and completed. -/
  apart : ∀ t ∈ r.expanding, t ∉ r.completed
  /-- Notes are kept only for types that are being expanded. -/
  waiting : ∀ t ∈ r.pending, t ∈ r.expanding
  /-- No type is listed twice. -/
  nodup : r.order.Nodup
  /-- The types that are listed are those that have a node. -/
  mem_order : ∀ t, t ∈ r.order ↔ t ∈ r.completed

namespace Valid

/-- Nothing is in any container at the beginning. -/
theorem empty : ({} : Registry φ).Valid where
  apart t h := absurd h (Finset.notMem_empty t)
  waiting _ h := absurd h Finmap.notMem_empty
  nodup := List.nodup_nil
  mem_order _ := iff_of_false List.not_mem_nil Finmap.notMem_empty

/-- A type that is not completed may be started. -/
theorem started (h : r.Valid) (hc : t ∉ r.completed) : (r.started t).Valid where
  apart u hu := by
    -- the type that is new in the set has no node
    cases Finset.mem_insert.mp hu with
    | inl hut => exact hut ▸ hc
    | inr hu => exact h.apart u hu
  waiting u hu := Finset.mem_insert_of_mem (h.waiting u hu)
  nodup := h.nodup
  mem_order := h.mem_order

/-- A note may be left for a type in the set. -/
theorem pushNote (h : r.Valid) (he : t ∈ r.expanding) : (r.pushNote t note).Valid where
  apart := h.apart
  waiting u hu := by
    -- only the entry of this type may be new
    cases Finmap.mem_insert.mp hu with
    | inl hut => exact hut ▸ he
    | inr hu => exact h.waiting u hu
  nodup := h.nodup
  mem_order := h.mem_order

/-- A type in the set may be completed. -/
theorem finished (h : r.Valid) (he : t ∈ r.expanding) : (r.finished t node).Valid where
  apart u hu hc := by
    obtain ⟨hne, hu⟩ := Finset.mem_erase.mp hu
    -- the only type that is new among the completed ones has been taken out
    cases Finmap.mem_insert.mp hc with
    | inl hut => exact hne hut
    | inr hc => exact h.apart u hu hc
  waiting u hu := by
    obtain ⟨hne, hu⟩ := Finmap.mem_erase.mp hu
    exact Finset.mem_erase.mpr ⟨hne, h.waiting u hu⟩
  nodup := by
    -- the type is not listed yet, since it has no node
    have hnew : t ∉ r.order := fun ht => h.apart t he ((h.mem_order t).mp ht)
    exact List.Nodup.append h.nodup (List.nodup_singleton t) (by simpa using hnew)
  mem_order u := by
    rw [Registry.finished, List.mem_append, List.mem_singleton, h.mem_order, Finmap.mem_insert,
      or_comm]

/-- Where the containers fit together, the set alone tells what is being expanded. -/
theorem stage_eq_expanding_iff (h : r.Valid) : r.stage t = .expanding ↔ t ∈ r.expanding := by
  by_cases he : t ∈ r.expanding
  · have hnone : r.completed.lookup t = none := Finmap.lookup_eq_none.mpr (h.apart t he)
    simp [stage, hnone, he]
  · cases hl : r.completed.lookup t <;> simp [stage, hl, he]

end Valid

/-! ## Questions -/

/-- The types are listed if each has a node in the map, and with the nodes that are found there. -/
theorem listed?_eq_some_iff {l : List (TypeId × NodeId)} :
    r.listed? = some l ↔
      r.order = l.map (·.1) ∧ ∀ e ∈ l, r.completed.lookup e.1 = some e.2 := by
  unfold listed?
  -- on the order, of which the looked up pairs are an image
  induction r.order generalizing l with
  | nil => cases l <;> simp
  | cons t order ih =>
    rw [List.mapM_cons]
    -- the order and the list have to be as long as each other
    cases l with
    | nil => cases r.completed.lookup t <;> simp [Option.bind_eq_some_iff]
    | cons e l =>
      obtain ⟨u, node⟩ := e
      rw [List.map_cons, List.cons.injEq, List.forall_mem_cons]
      constructor
      · intro h
        -- the head is looked up first, and then the rest
        obtain ⟨⟨v, id⟩, hv, h⟩ := Option.bind_eq_some_iff.mp h
        obtain ⟨rest, hrest, h⟩ := Option.bind_eq_some_iff.mp h
        cases h
        obtain ⟨id, hid, heq⟩ := Option.map_eq_some_iff.mp hv
        cases heq
        exact ⟨⟨rfl, (ih.mp hrest).1⟩, hid, (ih.mp hrest).2⟩
      · rintro ⟨⟨rfl, horder⟩, hnode, hl⟩
        rw [hnode, ih.mpr ⟨horder, hl⟩]
        rfl

/-- The types with a note that waits are those with an entry that holds one. -/
private theorem mem_waiting_iff : t ∈ r.waiting ↔ (r.pending.lookup t).getD [] ≠ [] := by
  rw [waiting, Finset.mem_filter, Finmap.mem_keys, ← Finmap.lookup_isSome, pendingCount]
  cases r.pending.lookup t <;> simp

/-- The first pending type is the least one that a note waits for. -/
theorem firstPending?_eq_some_iff : r.firstPending? = some t ↔
    (r.pending.lookup t).getD [] ≠ [] ∧
      ∀ u, (r.pending.lookup u).getD [] ≠ [] → t.index ≤ u.index := by
  simp only [← mem_waiting_iff]
  constructor
  · intro h
    unfold firstPending? at h
    split at h
    · rename_i hne
      obtain rfl := Option.some.inj h
      -- a type is known by its index, so the one with the least index waits
      obtain ⟨u, hu, hindex⟩ := Finset.mem_image.mp (Finset.min'_mem _ hne)
      refine ⟨?_, fun u hu => Finset.min'_le _ _ (Finset.mem_image_of_mem _ hu)⟩
      rwa [← hindex]
    · cases h
  · rintro ⟨ht, hle⟩
    have hne : (r.waiting.image TypeId.index).Nonempty := ⟨_, Finset.mem_image_of_mem _ ht⟩
    -- the index of `t` is one of those that wait, and no other is less
    have hmin : (r.waiting.image TypeId.index).min' hne = t.index := by
      refine le_antisymm (Finset.min'_le _ _ (Finset.mem_image_of_mem _ ht)) ?_
      refine Finset.le_min' _ hne _ fun i hi => ?_
      obtain ⟨u, hu, rfl⟩ := Finset.mem_image.mp hi
      exact hle u hu
    rw [firstPending?, dif_pos hne, hmin]

end Registry

end Schemata
