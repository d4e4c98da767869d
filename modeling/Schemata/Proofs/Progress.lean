import Schemata.Progress
import Schemata.Proofs.Lookup

/-!
# How progress changes

`Progress.start`, `Progress.await` and `Progress.complete` fail when they do not fit the stage of
their type.  Where they fit, they give the results named here: `started`, `noted` and `finished`.
The stage of a type is read off two searches, `node?` and `notes?`, so these are what is described.

## Key results

- `start_of_absent` / `await_of_isSome` / `complete_of_notes`: the calls that fit
- `notes?_started` / `notes?_noted` / `notes?_finished`: the notes after a call
- `queued_noted` / `queued_finished`: all notes after a call
-/

namespace Schemata.Progress

variable {φ : Type} {p : Progress φ} {t u : TypeId}

/-! ## Stages -/

/-- A type is absent when it has neither a node nor notes. -/
theorem stage_eq_absent_iff : p.stage t = .absent ↔ p.node? t = none ∧ p.notes? t = none := by
  unfold stage
  -- the stage is told from the node and the notes, so all four cases are gone through
  cases p.node? t <;> cases p.notes? t <;> simp

/-- A type is completed when it has a node. -/
theorem stage_eq_completed_iff {id : NodeId} : p.stage t = .completed id ↔ p.node? t = some id := by
  unfold stage
  cases p.node? t <;> cases p.notes? t <;> simp

/-- A type is being expanded when it has notes, perhaps none yet, and no node. -/
theorem stage_eq_expanding_iff :
    p.stage t = .expanding ↔ p.node? t = none ∧ (p.notes? t).isSome := by
  unfold stage
  cases p.node? t <;> cases p.notes? t <;> simp

/-! ## Results of the calls that fit -/

/-- A type more is being expanded, and nobody waits for it. -/
def started (p : Progress φ) (t : TypeId) : Progress φ :=
  { p with expanding := p.expanding ++ [(t, [])] }

/-- A note more is left for a type. -/
def noted (p : Progress φ) (t : TypeId) (note : φ) : Progress φ :=
  { p with expanding := p.expanding.map fun e => if e.1 = t then (e.1, e.2 ++ [note]) else e }

/-- A type is completed, and its notes are gone. -/
def finished (p : Progress φ) (t : TypeId) (node : NodeId) : Progress φ :=
  { completed := p.completed ++ [(t, node)], expanding := p.expanding.filter (·.1 ≠ t) }

/-- Starting an absent type works. -/
theorem start_of_absent (h : p.stage t = .absent) : p.start t = .ok (p.started t) := by
  simp only [start, h, started]

/-- Leaving a note for a type that is being expanded works. -/
theorem await_of_isSome {note : φ} (h : (p.notes? t).isSome) :
    p.await t note = .ok (p.noted t note) := by
  simp only [await, h, if_true, noted]

/-- Completing a type that is being expanded works, and hands its notes back. -/
theorem complete_of_notes {notes : List φ} {node : NodeId} (h : p.notes? t = some notes) :
    p.complete t node = .ok (notes, p.finished t node) := by
  simp only [complete, h, finished]

/-! ## Types that are completed or being expanded -/

/-- The types that are being expanded, in the order in which they were started. -/
def expandingTypes (p : Progress φ) : List TypeId := p.expanding.map (·.1)

/-- The completed types, in order of completion. -/
def completedTypes (p : Progress φ) : List TypeId := p.completed.map (·.1)

/-- A type has notes exactly if it is being expanded. -/
theorem isSome_notes?_iff : (p.notes? t).isSome ↔ t ∈ p.expandingTypes := isSome_valueOf?_iff

/-- A type has a node exactly if it is completed. -/
theorem isSome_node?_iff : (p.node? t).isSome ↔ t ∈ p.completedTypes := isSome_valueOf?_iff

/-- Notes are kept for types that are being expanded. -/
theorem mem_expandingTypes_of_notes {notes : List φ} (h : p.notes? t = some notes) :
    t ∈ p.expandingTypes :=
  isSome_notes?_iff.mp (by rw [h]; rfl)

/-- A type that is started is the last one of those being expanded. -/
@[simp] theorem expandingTypes_started :
    (p.started t).expandingTypes = p.expandingTypes ++ [t] := by
  simp [expandingTypes, started]

/-- A note leaves the types that are being expanded. -/
@[simp] theorem expandingTypes_noted {note : φ} :
    (p.noted t note).expandingTypes = p.expandingTypes := by
  rw [expandingTypes, noted, List.map_map, expandingTypes]
  -- an entry keeps its type, whether the note goes to it or not
  refine List.map_congr_left fun e _ => ?_
  simp only [Function.comp_apply]
  split <;> rfl

/-- A type that is completed is not being expanded any more. -/
@[simp] theorem expandingTypes_finished {node : NodeId} :
    (p.finished t node).expandingTypes = p.expandingTypes.filter (· ≠ t) := by
  rw [expandingTypes, finished, expandingTypes, List.filter_map]
  rfl

/-- A type that is started is not completed. -/
@[simp] theorem completedTypes_started : (p.started t).completedTypes = p.completedTypes := rfl

/-- A type that is completed is listed last, with its node. -/
@[simp] theorem completed_finished {node : NodeId} :
    (p.finished t node).completed = p.completed ++ [(t, node)] := rfl

/-- A type that is completed goes from one list to the other. -/
theorem types_finished {node : NodeId} (h : p.expandingTypes.Nodup) (ht : t ∈ p.expandingTypes) :
    ((p.finished t node).completedTypes ++ (p.finished t node).expandingTypes).Perm
      (p.completedTypes ++ p.expandingTypes) := by
  -- no type comes twice, so leaving it out is erasing it
  have herase : p.expandingTypes.filter (· ≠ t) = p.expandingTypes.erase t := by
    rw [h.erase_eq_filter]
    exact List.filter_congr fun u _ => by by_cases hu : u = t <;> simp [hu]
  rw [completedTypes, completed_finished, expandingTypes_finished, List.map_append,
    List.append_assoc, herase]
  exact (List.perm_cons_erase ht).symm.append_left _

/-! ## Notes after a call -/

/-- A type that is started has no notes yet. -/
theorem notes?_started :
    (p.started t).notes? u = (p.notes? u).or (if t = u then some [] else none) := by
  show valueOf? (p.expanding ++ [(t, [])]) u = _
  rw [valueOf?_append, valueOf?_singleton]
  rfl

/-- A note goes behind the notes of its type. -/
theorem notes?_noted {note : φ} :
    (p.noted t note).notes? u =
      if t = u then (p.notes? u).map (· ++ [note]) else p.notes? u := by
  obtain ⟨completed, expanding⟩ := p
  simp only [notes?, noted]
  -- on the entries, in the order in which they are searched
  induction expanding with
  | nil => simp
  | cons e rest ih =>
    rw [List.map_cons]
    by_cases he : e.1 = u
    · -- this entry is the one that is found, whether the note goes to it or not
      by_cases ht : t = u
      · simp [he, ht]
      · simp [he, ht, Ne.symm ht]
    · have hkey : (if e.1 = t then (e.1, e.2 ++ [note]) else e).1 ≠ u := by split <;> exact he
      rw [List.find?_cons_of_neg (by simpa using hkey), List.find?_cons_of_neg (by simpa using he)]
      exact ih

/-- A completed type has no notes left; the notes of the others stay. -/
theorem notes?_finished {node : NodeId} :
    (p.finished t node).notes? u = if t = u then none else p.notes? u := by
  obtain ⟨completed, expanding⟩ := p
  simp only [notes?, finished]
  -- on the entries, of which those of the type are dropped
  induction expanding with
  | nil => simp
  | cons e rest ih =>
    by_cases he : e.1 = t
    · -- the entry is dropped, and was found only if `u` is `t`
      rw [List.filter_cons_of_neg (by simpa using he), ih]
      split
      · rfl
      · rename_i hu
        have hne : e.1 ≠ u := fun h => hu (he.symm.trans h)
        rw [List.find?_cons_of_neg (by simpa using hne)]
    · rw [List.filter_cons_of_pos (by simpa using he)]
      by_cases hu : e.1 = u
      · have htu : t ≠ u := fun h => he (hu.trans h.symm)
        simp [hu, htu]
      · rw [List.find?_cons_of_neg (by simpa using hu), ih,
          List.find?_cons_of_neg (by simpa using hu)]

/-! ## All notes -/

/-- All notes that were left, with the types that they wait for. -/
def queued (p : Progress φ) : List (TypeId × φ) :=
  p.expanding.flatMap fun e => e.2.map fun note => (e.1, note)

/-- If no type is expanded twice, a note is queued when it is among the notes of its type. -/
theorem mem_queued_iff (h : p.expandingTypes.Nodup) {note : φ} :
    (t, note) ∈ p.queued ↔ ∃ notes, p.notes? t = some notes ∧ note ∈ notes := by
  -- the entry with the note is the only one of its type
  constructor
  · intro hq
    obtain ⟨e, he, hn⟩ := List.mem_flatMap.mp hq
    obtain ⟨n, hn, heq⟩ := List.mem_map.mp hn
    cases heq
    exact ⟨e.2, valueOf?_of_mem h he, hn⟩
  · rintro ⟨notes, hnotes, hn⟩
    exact List.mem_flatMap.mpr
      ⟨(t, notes), mem_of_valueOf? hnotes, List.mem_map.mpr ⟨note, hn, rfl⟩⟩

/-- A type is pending when a note for it is queued. -/
private theorem mem_pending_iff : t ∈ p.pending ↔ ∃ note, (t, note) ∈ p.queued := by
  constructor
  · intro h
    obtain ⟨⟨u, notes⟩, he, rfl⟩ := List.mem_map.mp h
    obtain ⟨he, hne⟩ := List.mem_filter.mp he
    obtain ⟨note, hnote⟩ := List.exists_mem_of_ne_nil notes (by simpa using hne)
    exact ⟨note, List.mem_flatMap.mpr ⟨_, he, List.mem_map.mpr ⟨note, hnote, rfl⟩⟩⟩
  · rintro ⟨note, h⟩
    obtain ⟨⟨u, notes⟩, he, hn⟩ := List.mem_flatMap.mp h
    obtain ⟨n, hn, heq⟩ := List.mem_map.mp hn
    cases heq
    refine List.mem_map.mpr ⟨(u, notes), List.mem_filter.mpr ⟨he, ?_⟩, rfl⟩
    simpa using List.ne_nil_of_mem hn

/-- No type is pending exactly if no note is queued. -/
theorem firstPending?_eq_none_iff : p.firstPending? = none ↔ p.queued = [] := by
  rw [firstPending?, Option.map_eq_none_iff, List.min?_eq_none_iff, List.map_eq_nil_iff,
    List.eq_nil_iff_forall_not_mem, List.eq_nil_iff_forall_not_mem]
  constructor
  · rintro h ⟨u, note⟩ hq
    exact h u (mem_pending_iff.mpr ⟨note, hq⟩)
  · intro h u hu
    obtain ⟨note, hq⟩ := mem_pending_iff.mp hu
    exact h (u, note) hq

/-- The first pending type is the least one for which a note is queued. -/
theorem firstPending?_eq_some_iff : p.firstPending? = some t ↔
    (∃ note, (t, note) ∈ p.queued) ∧ ∀ e ∈ p.queued, t.index ≤ e.1.index := by
  -- a type is known by its index, so it is enough to look for the least index
  have hmin : p.firstPending? = some t ↔ (p.pending.map (·.index)).min? = some t.index := by
    rw [firstPending?, Option.map_eq_some_iff]
    constructor
    · rintro ⟨i, hi, rfl⟩
      exact hi
    · intro hi
      exact ⟨_, hi, rfl⟩
  rw [hmin, List.min?_eq_some_iff, ← mem_pending_iff]
  constructor
  · rintro ⟨hmem, hle⟩
    obtain ⟨u, hu, he⟩ := List.mem_map.mp hmem
    obtain rfl : u = t := by
      cases u
      cases t
      exact congrArg TypeId.mk he
    refine ⟨hu, fun e he => hle _ (List.mem_map.mpr ⟨e.1, ?_, rfl⟩)⟩
    exact mem_pending_iff.mpr ⟨e.2, he⟩
  · rintro ⟨hmem, hle⟩
    refine ⟨List.mem_map.mpr ⟨t, hmem, rfl⟩, fun i hi => ?_⟩
    obtain ⟨u, hu, rfl⟩ := List.mem_map.mp hi
    obtain ⟨note, hq⟩ := mem_pending_iff.mp hu
    exact hle (u, note) hq

/-- Starting a type queues nothing. -/
@[simp] theorem queued_started : (p.started t).queued = p.queued := by
  simp [queued, started]

/-- A note more is queued. -/
theorem queued_noted {note : φ} (h : p.expandingTypes.Nodup) (ht : t ∈ p.expandingTypes) :
    (p.noted t note).queued.Perm (p.queued ++ [(t, note)]) := by
  obtain ⟨completed, expanding⟩ := p
  simp only [queued, noted, expandingTypes] at h ht ⊢
  -- on the entries; just one of them is about the type
  induction expanding with
  | nil => exact nomatch ht
  | cons e rest ih =>
    rw [List.map_cons, List.nodup_cons] at h
    rw [List.map_cons, List.flatMap_cons, List.flatMap_cons]
    by_cases he : e.1 = t
    · -- no later entry is about the same type
      have hrest : rest.map (fun e => if e.1 = t then (e.1, e.2 ++ [note]) else e) = rest := by
        conv_rhs => rw [← List.map_id rest]
        refine List.map_congr_left fun x hx => ?_
        have hne : x.1 ≠ t := fun hxt => h.1 (List.mem_map.mpr ⟨x, hx, hxt.trans he.symm⟩)
        exact if_neg hne
      rw [if_pos he, hrest, List.map_append, he, List.append_assoc, List.append_assoc]
      exact List.perm_append_comm.append_left _
    -- the entry is one of those that are left
    · have ht : t ∈ rest.map (·.1) := by
        cases List.mem_cons.mp ht with
        | inl ht => exact absurd ht.symm he
        | inr ht => exact ht
      rw [if_neg he, List.append_assoc]
      exact (ih h.2 ht).append_left _

/-- Only the notes of other types stay when a type is completed. -/
theorem queued_finished {node : NodeId} :
    (p.finished t node).queued = p.queued.filter (·.1 ≠ t) := by
  obtain ⟨completed, expanding⟩ := p
  simp only [queued, finished]
  induction expanding with
  | nil => rfl
  | cons e rest ih =>
    rw [List.flatMap_cons, List.filter_append, ← ih]
    by_cases he : e.1 = t
    -- the notes of one entry are all dropped, or all kept
    · have hnone : (e.2.map fun note => (e.1, note)).filter (·.1 ≠ t) = [] := by
        simp [he]
      rw [List.filter_cons_of_neg (by simpa using he), hnone, List.nil_append]
    · have hall : (e.2.map fun note => (e.1, note)).filter (·.1 ≠ t) =
          e.2.map fun note => (e.1, note) := by
        simp [he]
      rw [List.filter_cons_of_pos (by simpa using he), hall, List.flatMap_cons]

/-! ## Stages as lists -/

/-- No type is listed twice among those that are completed or being expanded. -/
def Consistent (p : Progress φ) : Prop := (p.completedTypes ++ p.expandingTypes).Nodup

/-- A type is absent when it is in neither list. -/
theorem stage_eq_absent_iff_notMem :
    p.stage t = .absent ↔ t ∉ p.completedTypes ∧ t ∉ p.expandingTypes := by
  rw [stage_eq_absent_iff, ← isSome_node?_iff, ← isSome_notes?_iff, Option.not_isSome_iff_eq_none,
    Option.not_isSome_iff_eq_none]

/-- A type that is completed has its node, unless it had one before. -/
theorem node?_finished {node : NodeId} :
    (p.finished t node).node? u = (p.node? u).or (if t = u then some node else none) := by
  show valueOf? (p.completed ++ [(t, node)]) u = _
  rw [valueOf?_append, valueOf?_singleton]
  rfl

/-- Starting a type moves it alone. -/
theorem stage_started (h : p.stage t = .absent) :
    (p.started t).stage u = if t = u then .expanding else p.stage u := by
  have hnode : (p.started t).node? u = p.node? u := rfl
  rw [stage, hnode, notes?_started]
  -- the type itself has no node, and its notes are new
  by_cases htu : t = u
  · subst htu
    simp [stage_eq_absent_iff.mp h]
  · simp [htu, stage]

/-- A note moves no type. -/
theorem stage_noted {note : φ} : (p.noted t note).stage u = p.stage u := by
  have hnode : (p.noted t note).node? u = p.node? u := rfl
  rw [stage, hnode, notes?_noted, stage]
  by_cases htu : t = u
  · cases p.node? u <;> cases p.notes? u <;> simp [htu]
  · rw [if_neg htu]

/-- Completing a type moves it alone. -/
theorem stage_finished {node : NodeId} (h : p.stage t = .expanding) :
    (p.finished t node).stage u = if t = u then .completed node else p.stage u := by
  rw [stage, node?_finished, notes?_finished]
  -- the type itself had no node before
  by_cases htu : t = u
  · subst htu
    simp [(stage_eq_expanding_iff.mp h).1]
  · simp [htu, stage]

namespace Consistent

/-- Nothing is listed at the beginning. -/
theorem empty : ({} : Progress φ).Consistent := List.nodup_nil

/-- No type is completed twice. -/
theorem completedTypes_nodup (h : p.Consistent) : p.completedTypes.Nodup := h.of_append_left

/-- No type is expanded twice at a time. -/
theorem expandingTypes_nodup (h : p.Consistent) : p.expandingTypes.Nodup := h.of_append_right

/-- No type is both completed and being expanded. -/
theorem not_both (h : p.Consistent) : ¬ (t ∈ p.completedTypes ∧ t ∈ p.expandingTypes) :=
  fun ⟨hcompleted, hexpanding⟩ => List.disjoint_of_nodup_append h hcompleted hexpanding

/-- The node of a type is the one with which it is listed. -/
theorem node?_eq_some_iff (h : p.Consistent) {node : NodeId} :
    p.node? t = some node ↔ (t, node) ∈ p.completed :=
  ⟨mem_of_valueOf?, valueOf?_of_mem h.completedTypes_nodup⟩

/-- A type is being expanded when it is listed as such. -/
theorem stage_eq_expanding_iff (h : p.Consistent) :
    p.stage t = .expanding ↔ t ∈ p.expandingTypes := by
  rw [Progress.stage_eq_expanding_iff, isSome_notes?_iff, ← Option.not_isSome_iff_eq_none,
    isSome_node?_iff]
  -- what is being expanded is not completed
  exact ⟨And.right, fun ht => ⟨fun hcompleted => h.not_both ⟨hcompleted, ht⟩, ht⟩⟩

/-- A type with notes is being expanded. -/
theorem stage_of_notes (h : p.Consistent) {notes : List φ} (hnotes : p.notes? t = some notes) :
    p.stage t = .expanding :=
  h.stage_eq_expanding_iff.mpr (mem_expandingTypes_of_notes hnotes)

/-- Starting an absent type lists it for the first time. -/
theorem started (h : p.Consistent) (hstage : p.stage t = .absent) : (p.started t).Consistent := by
  obtain ⟨hcompleted, hexpanding⟩ := stage_eq_absent_iff_notMem.mp hstage
  rw [Consistent, completedTypes_started, expandingTypes_started, ← List.append_assoc]
  exact List.Nodup.append h (List.nodup_singleton t) (by simp [hcompleted, hexpanding])

/-- A note lists no type again. -/
theorem noted (h : p.Consistent) {note : φ} : (p.noted t note).Consistent := by
  rw [Consistent, expandingTypes_noted]
  exact h

/-- Completing a type moves it from one list to the other. -/
theorem finished (h : p.Consistent) {node : NodeId} (ht : t ∈ p.expandingTypes) :
    (p.finished t node).Consistent :=
  (types_finished h.expandingTypes_nodup ht).nodup_iff.mpr h

end Consistent

end Schemata.Progress
