import Schemata.Proofs.Walk.Order

/-!
# How deep a walk goes

A run fails only where there is no level left.  On the way from a root to that place every record is
opened that was not known before, so no record comes twice, and between two records there are only
containers, one inside the other.  A number of levels that leaves room for this is always enough.

## Key results

- `Runs.error_eq`: the only error of a run
- `Runs.room_lt_need`: a run that fails had less room than its task needs
-/

namespace Schemata.Walk

variable {S : Setting} {task : Task} {b b' : Build} {r : Except CompileError NodeId × Build}
  {t : TypeId} {e : CompileError}

/-- A run that fails went too deep. -/
theorem Runs.error_eq (h : Runs S task b r) (herror : r.1 = .error e) :
    ∃ path, e = .tooDeep path S.options.maxDepth := by
  -- errors are made in one place and handed on everywhere else
  induction h with
  | tooDeep =>
    cases herror
    exact ⟨_, rfl⟩
  | fieldPlain | fieldRecord | scalar | enumeration | unknownElements | elements | known
  | deferred | expanded | noFields => exact nomatch herror
  | fieldFailed _ ih | elementsFailed _ _ ih | expansionFailed _ _ _ ih | fieldsFailed _ ih =>
    exact ih herror
  | nextField _ _ _ ihrest => exact ihrest herror

/-! ## Records that are still to come -/

/-- The records of the catalog that have no name yet. -/
def unnamed (S : Setting) (b : Build) : List TypeId :=
  S.catalog.records.filter fun t => t ∉ b.names.types

/-- No more records are unnamed than there are. -/
private theorem length_unnamed_le (S : Setting) (b : Build) :
    (unnamed S b).length ≤ S.catalog.records.length := List.length_filter_le _ _

/-- The records without a name are those that the search has not entered. -/
private theorem unnamed_eq (S : Setting) (b : Build) :
    unnamed S b = Search.unentered S.catalog b.search := rfl

/-- When names are added, no record more is unnamed. -/
private theorem unnamed_sublist (h : b.names.entries <+: b'.names.entries) :
    (unnamed S b').Sublist (unnamed S b) := by
  have hentered : b.search.entered ⊆ b'.search.entered := (h.map Prod.fst).subset
  exact Search.unentered_sublist hentered

/-- When a record is opened, one less is unnamed. -/
private theorem length_unnamed_openRecord (hb : b.Sound S) (ht : S.catalog.Has t)
    (hrecord : S.catalog.isRecord t = true) (hstage : b.progress.stage t = .absent) :
    (unnamed S (b.openRecord S.catalog t)).length < (unnamed S b).length := by
  -- opening enters the record in the search, and it was not entered before
  rw [unnamed_eq, hb.search_openRecord S.catalog hstage]
  exact Search.length_unentered_enter (Catalog.shape?_of_isRecord ht hrecord)
    (hb.notMem_entered hstage)

/-! ## Room -/

/-- The levels that are left for a task. -/
def Task.room : Task → Nat
  | .field room .. | .type room .. | .fields room .. => room

/-- The levels between a record and the next: the containers around it, and one field. -/
def stride (S : Setting) : Nat := S.catalog.containers.length + 1

/-- A number of levels that is enough for a task. -/
def Task.need (S : Setting) (b : Build) : Task → Nat
  | .field _ _ f => S.catalog.elementSteps f.type + 1 + (unnamed S b).length * stride S
  | .type _ _ t => S.catalog.elementSteps t + (unnamed S b).length * stride S
  | .fields .. => stride S + (unnamed S b).length * stride S

/-- A type of a closed catalog needs less than a stride for each record, and one more. -/
theorem Task.need_type_lt (hc : S.catalog.Closed) (b : Build) (room : Nat) (p : Position)
    (t : TypeId) :
    (Task.type room p t).need S b < (S.catalog.records.length + 1) * stride S := by
  have hsteps := hc.elementSteps_le t
  calc S.catalog.elementSteps t + (unnamed S b).length * stride S
      -- containers first, then a stride for each record at most
      ≤ S.catalog.containers.length + S.catalog.records.length * stride S :=
        Nat.add_le_add hsteps (Nat.mul_le_mul_right _ (length_unnamed_le S b))
    _ < S.catalog.records.length * stride S + stride S := by
        rw [stride]
        omega
    _ = (S.catalog.records.length + 1) * stride S := by rw [Nat.succ_mul]

/-- A run that fails had less room than its task needs. -/
theorem Runs.room_lt_need (h : Runs S task b r) (hc : S.catalog.Closed)
    (hpolicy : S.policy.Closed S.catalog) (htask : task.Within S.catalog)
    (hb : b.Sound S) (hready : task.Ready b) (herror : r.1 = .error e) :
    task.room < task.need S b := by
  -- on the run, down to the field for which there was no level left
  induction h with
  | tooDeep =>
    -- no room is left, and a field needs at least one level
    simp only [Task.room, Task.need]
    omega
  | fieldPlain | fieldRecord | scalar | enumeration | unknownElements | elements | known
  | deferred | expanded | noFields => exact nomatch herror
  -- the field takes one level from the room and from the need
  | @fieldFailed room p f b e b' htype ih =>
    have hlt := ih htask hb trivial herror
    simp only [Task.room, Task.need] at hlt ⊢
    omega
  | @elementsFailed room p t b e err b' helement hitems ih =>
    have hlt := ih (Task.within_elements hc helement) ((Move.visit p t).sound hb) trivial herror
    -- the element is one level further down, and has one step less to go
    have hsteps := hc.elementSteps_of_some helement
    simp only [Task.room, Task.need, Field.elements] at hlt ⊢
    rw [hsteps]
    exact hlt
  | @expansionFailed room p t b e b' hrecord hstage hfields ih =>
    have ht : S.catalog.Has t := htask t (List.mem_singleton_self t)
    obtain ⟨hopened, hopen⟩ := moves_openRecord hb p hrecord hstage
    have hlt := ih (Task.within_listed hpolicy ht) (sound_of_moves hopened hb) hopen herror
    -- the record is one of those that were unnamed, so its stride was allowed for
    have hless := length_unnamed_openRecord (b := b.visit p t) ((Move.visit p t).sound hb) ht
      hrecord hstage
    have hmul := Nat.mul_le_mul_right (stride S) hless
    rw [Nat.succ_mul] at hmul
    simp only [Task.room, Task.need] at hlt ⊢
    show room < S.catalog.elementSteps t + (unnamed S (b.visit p t)).length * stride S
    omega
  | @nextField room p object f fs b child b' r hfield hrest ih ihrest =>
    obtain ⟨hset, hopen⟩ := move_setProperty (S := S)
      (Build.IsOpen.extends hready hfield.extends) f.name child
    -- the later fields find at least as many records named
    have hlt := ihrest htask.tail (hset.sound (hfield.sound hb trivial)) hopen herror
    have hle : (unnamed S b').length ≤ (unnamed S b).length :=
      (unnamed_sublist hfield.extends.names).length_le
    have hmul := Nat.mul_le_mul_right (stride S) hle
    simp only [Task.room, Task.need] at hlt ⊢
    change room < stride S + (unnamed S b').length * stride S at hlt
    omega
  | @fieldsFailed room p object f fs b e b' hfield ih =>
    have hlt := ih htask.head hb trivial herror
    -- the containers around the field's type fit into the stride of the record
    have hsteps := hc.elementSteps_le f.type
    simp only [Task.room, Task.need, stride] at hlt ⊢
    omega

end Schemata.Walk
