import Schemata.Proofs.Field
import Schemata.Proofs.Walk.Effect

/-!
# Runs of a walk

`Walk.Runs` says what the walk with the standard strategies does, one case for each thing that can
happen: a task is carried out on a build, and ends with a node or an error and with another build.
The walk itself satisfies it, so that what holds of all runs holds of the walk.

A run fails in one way only, by going too deep.  That nothing else can fail is part of what is shown
here: every type has a strategy, and a record that is completed is still being expanded.

## Key results

- `Runs.isSome_notes?`: a run completes no type but those that it started
- `Task.runs`: carrying out a task is a run
- `Runs.runOn_eq`: a task has no other run
-/

namespace Schemata.Walk

/-- A part of a walk, with `room` levels left below its position. -/
inductive Task where
  /-- Convert a field of the type at a position. -/
  | field (room : Nat) (position : Position) (field : Field)
  /-- Convert the type at a position. -/
  | type (room : Nat) (position : Position) (type : TypeId)
  /-- Convert the remaining fields of the record at a position, and give them to its object. -/
  | fields (room : Nat) (position : Position) (object : NodeId) (fields : List Field)

namespace Task

/-- What carries a task out. -/
def action (S : Setting) : Task → BuildM NodeId
  | .field room p f => visit Strategy.standard S room p f
  | .type room p t =>
    dispatch Strategy.standard
      { S with position := p, visit := visit Strategy.standard S room p } t
  | .fields room p object fs => do
    fs.forM fun f => do
      let child ← visit Strategy.standard S room p f
      BuildM.addProperty object f.name child
    return object

end Task

/-- What a task does to a build, and how it ends. -/
inductive Runs (S : Setting) : Task → Build → Except CompileError NodeId × Build → Prop where
  /-- There is no level left for a field. -/
  | tooDeep {p f b} :
      Runs S (.field 0 p f) b
        (.error (.tooDeep (p.enter f.name).path S.options.maxDepth), b)
  /-- A field that is no record holds the node of its type. -/
  | fieldPlain {room p f b id b'} (hrecord : S.catalog.isRecord f.type = false)
      (htype : Runs S (.type room (p.enter f.name) f.type) b (.ok id, b')) :
      Runs S (.field (room + 1) p f) b (.ok id, b')
  /-- A field that is a record holds a reference to its node. -/
  | fieldRecord {room p f b id b'} (hrecord : S.catalog.isRecord f.type = true)
      (htype : Runs S (.type room (p.enter f.name) f.type) b (.ok id, b')) :
      Runs S (.field (room + 1) p f) b
        (.ok (b'.refer S.options.refPrefix id).1, (b'.refer S.options.refPrefix id).2)
  /-- A field fails with its type. -/
  | fieldFailed {room p f b e b'}
      (htype : Runs S (.type room (p.enter f.name) f.type) b (.error e, b')) :
      Runs S (.field (room + 1) p f) b (.error e, b')
  /-- A built-in type is a scalar. -/
  | scalar {room p t b s} (hshape : S.catalog.shape? t = some (.scalar s)) :
      Runs S (.type room p t) b
        (.ok b.arena.next, (b.visit p t).store (.scalar s.jsonType s.format))
  /-- An enumeration keeps its variants. -/
  | enumeration {room p t b variants} (hshape : S.catalog.shape? t = some (.enumeration variants)) :
      Runs S (.type room p t) b
        (.ok b.arena.next,
          (b.visit p t).store (.enumeration (S.catalog.simpleName t) variants))
  /-- A collection may not know its elements. -/
  | unknownElements {room p t b} (hshape : S.catalog.shape? t = some (.collection none)) :
      Runs S (.type room p t) b (.ok b.arena.next, (b.visit p t).store (.array none))
  /-- A container is an array of its elements. -/
  | elements {room p t b e items b'} (helement : S.catalog.element? t = some e)
      (hitems : Runs S (.field room p (.elements t e)) (b.visit p t) (.ok items, b')) :
      Runs S (.type room p t) b (.ok b'.arena.next, b'.store (.array (some items)))
  /-- A container fails with its elements. -/
  | elementsFailed {room p t b e err b'} (helement : S.catalog.element? t = some e)
      (hitems : Runs S (.field room p (.elements t e)) (b.visit p t) (.error err, b')) :
      Runs S (.type room p t) b (.error err, b')
  /-- A record that is completed has its node. -/
  | known {room p t b id} (hrecord : S.catalog.isRecord t = true)
      (hnode : b.progress.node? t = some id) :
      Runs S (.type room p t) b (.ok id, b.visit p t)
  /-- A record that is being expanded is put off. -/
  | deferred {room p t b} (hrecord : S.catalog.isRecord t = true)
      (hstage : b.progress.stage t = .expanding) :
      Runs S (.type room p t) b
        (.ok b.arena.next, (b.visit p t).defer S.options.refPrefix t)
  /-- A record that is absent is expanded, field by field. -/
  | expanded {room p t b b' notes} (hrecord : S.catalog.isRecord t = true)
      (hstage : b.progress.stage t = .absent)
      (hfields : Runs S (.fields room p b.arena.next (S.policy S.catalog t))
        ((b.visit p t).openRecord S.catalog t) (.ok b.arena.next, b'))
      (hnotes : b'.progress.notes? t = some notes) :
      Runs S (.type room p t) b
        (.ok b.arena.next, b'.closeRecord t b.arena.next notes)
  /-- A record fails with its fields, and is then never completed. -/
  | expansionFailed {room p t b e b'} (hrecord : S.catalog.isRecord t = true)
      (hstage : b.progress.stage t = .absent)
      (hfields : Runs S (.fields room p b.arena.next (S.policy S.catalog t))
        ((b.visit p t).openRecord S.catalog t) (.error e, b')) :
      Runs S (.type room p t) b (.error e, b')
  /-- No field remains. -/
  | noFields {room p object b} : Runs S (.fields room p object []) b (.ok object, b)
  /-- A field is converted, and given to the object before the next one is looked at. -/
  | nextField {room p object f fs b child b' r}
      (hfield : Runs S (.field room p f) b (.ok child, b'))
      (hrest : Runs S (.fields room p object fs) (b'.setProperty object f.name child) r) :
      Runs S (.fields room p object (f :: fs)) b r
  /-- The fields fail with one of them. -/
  | fieldsFailed {room p object f fs b e b'}
      (hfield : Runs S (.field room p f) b (.error e, b')) :
      Runs S (.fields room p object (f :: fs)) b (.error e, b')

namespace Runs

variable {S : Setting} {task : Task} {b : Build} {r : Except CompileError NodeId × Build}

/-- Opening a record takes no fix-ups away from other types. -/
private theorem isSome_notes?_openRecord {p : Position} {t u : TypeId}
    (h : (b.progress.notes? t).isSome) :
    (((b.visit p u).openRecord S.catalog u).progress.notes? t).isSome := by
  obtain ⟨notes, hnotes⟩ := Option.isSome_iff_exists.mp h
  rw [Build.notes?_openRecord_of_some (b := b.visit p u) S.catalog hnotes]
  rfl

/-- A run completes no type but those that it started. -/
theorem isSome_notes? (h : Runs S task b r) {t : TypeId} (ht : (b.progress.notes? t).isSome) :
    (r.2.progress.notes? t).isSome := by
  -- on the run; only the end of an expansion takes fix-ups away
  induction h with
  | tooDeep | scalar | enumeration | unknownElements | known | noFields => exact ht
  | fieldPlain _ _ ih | fieldFailed _ ih | elements _ _ ih | elementsFailed _ _ ih
  | fieldsFailed _ ih => exact ih ht
  | fieldRecord _ _ ih =>
    rw [Build.progress_refer]
    exact ih ht
  | deferred =>
    rw [Build.notes?_defer]
    split
    · rw [Option.isSome_map]
      exact ht
    · exact ht
  | @expanded room p u b b' notes hshape hstage hfields hnotes ih =>
    -- the record that is completed was absent when the run began, so it is not `t`
    have hne : u ≠ t := by
      rintro rfl
      rw [(Progress.stage_eq_absent_iff.mp hstage).2] at ht
      cases ht
    rw [Build.notes?_closeRecord hne]
    exact ih (isSome_notes?_openRecord ht)
  | expansionFailed _ _ _ ih => exact ih (isSome_notes?_openRecord ht)
  | nextField _ _ ih ihrest => exact ihrest (ih ht)

end Runs

/-! ## The walk runs -/

section Soundness

variable {S : Setting} {b b' : Build} {p : Position} {t : TypeId} {room : Nat}

/-- The standard strategy for a type, by its shape. -/
def strategyFor (c : Catalog) (t : TypeId) : Strategy :=
  match c.shape? t with
  | some (.scalar _) => .scalar
  | some (.array _) => .array
  | some (.collection _) => .collection
  | some (.enumeration _) => .enumeration
  | some .record | none => .record

/-- The standard strategies are told apart by shapes, and every type has one. -/
theorem select_standard (c : Catalog) (t : TypeId) :
    Strategy.select Strategy.standard c t = some (strategyFor c t) := by
  rw [Strategy.select, strategyFor]
  cases h : c.shape? t with
  -- an unknown type is a record, which is the last strategy of the list
  | none =>
    simp [Strategy.standard, Strategy.scalar, Strategy.array, Strategy.collection,
      Strategy.enumeration, Strategy.record, h]
  | some s =>
    cases s <;>
      simp [Strategy.standard, Strategy.scalar, Strategy.array, Strategy.collection,
        Strategy.enumeration, Strategy.record, h]

/-- A record is converted by the strategy for records. -/
theorem strategyFor_of_isRecord {c : Catalog} (h : c.isRecord t = true) :
    strategyFor c t = .record := by
  rw [Catalog.isRecord] at h
  rw [strategyFor]
  cases hshape : c.shape? t with
  | none => rfl
  | some s =>
    cases s with
    | record => rfl
    | scalar k | array e | collection o | enumeration variants =>
      rw [hshape] at h
      cases h

/-- A strategy is chosen by the shape, and the visit is written to the log. -/
theorem runOn_choose (scope : Scope) (t : TypeId) :
    (Strategy.choose Strategy.standard scope t).runOn b =
      (.ok (strategyFor scope.catalog t), b.visit scope.position t) := by
  rw [Strategy.choose, BuildM.runOn_bind_ok (BuildM.runOn_record _ b), select_standard]
  rfl

/-- The scope in which a type is converted. -/
abbrev scopeOf (S : Setting) (room : Nat) (p : Position) : Scope :=
  { S with position := p, visit := visit Strategy.standard S room p }

/-- A type is converted by the strategy for its shape. -/
private theorem runOn_type (t : TypeId) :
    ((Task.type room p t).action S).runOn b =
      ((strategyFor S.catalog t).convert (scopeOf S room p) t).runOn (b.visit p t) :=
  BuildM.runOn_bind_ok (runOn_choose (scopeOf S room p) t)

/-- A field is converted by the strategy for its type. -/
private theorem runOn_field (f : Field) :
    ((Task.field (room + 1) p f).action S).runOn b =
      ((strategyFor S.catalog f.type).convertField (scopeOf S room (p.enter f.name)) f).runOn
        (b.visit (p.enter f.name) f.type) :=
  BuildM.runOn_bind_ok (runOn_choose (scopeOf S room (p.enter f.name)) f.type)

/-- The fields of a record are converted one after the other. -/
private theorem runOn_fields_cons (object : NodeId) (f : Field) (fs : List Field) :
    ((Task.fields room p object (f :: fs)).action S).runOn b =
      match ((Task.field room p f).action S).runOn b with
      | (.ok child, b') =>
        ((Task.fields room p object fs).action S).runOn (b'.setProperty object f.name child)
      | (.error e, b') => (.error e, b') := by
  simp only [Task.action, List.forM_eq_forM, List.forM_cons, bind_assoc]
  rcases hchild : (visit Strategy.standard S room p f).runOn b with ⟨e | child, b'⟩
  -- a field that fails is the end of the fields
  · rw [BuildM.runOn_bind_error hchild]
  · rw [BuildM.runOn_bind_ok hchild, BuildM.runOn_bind_ok (BuildM.runOn_addProperty _ _ _ _)]
    rfl

/-- If fields are converted by runs, so are all fields of a record. -/
private theorem fields_runs (object : NodeId)
    (hfield : ∀ f b, Runs S (.field room p f) b (((Task.field room p f).action S).runOn b))
    (fs : List Field) (b : Build) :
    Runs S (.fields room p object fs) b (((Task.fields room p object fs).action S).runOn b) := by
  -- each field is converted on the build that the fields before it left
  induction fs generalizing b with
  | nil => exact .noFields
  | cons f fs ih =>
    have hf := hfield f b
    rw [runOn_fields_cons]
    split
    · rename_i child b' heq
      rw [heq] at hf
      exact .nextField hf (ih _)
    · rename_i e b' heq
      rw [heq] at hf
      exact .fieldsFailed hf

/-- A container is converted by way of its elements. -/
private theorem convert_of_element? {e : TypeId} (helement : S.catalog.element? t = some e) :
    (strategyFor S.catalog t).convert (scopeOf S room p) t = (do
      let items ← (Task.field room p (.elements t e)).action S
      BuildM.insert (.array (some items)) : BuildM NodeId) := by
  -- arrays and collections are converted in the same way, once their elements are known
  obtain ⟨s, hshape, hs⟩ := Catalog.exists_shape?_of_element? helement
  cases s with
  | array a =>
    cases hs
    simp only [strategyFor, hshape, Strategy.array]
    rfl
  | collection o =>
    cases hs
    simp only [strategyFor, hshape, Strategy.collection]
    rfl
  | scalar _ | enumeration _ | record => exact nomatch hs

/-- If elements are converted by runs, so is a container. -/
private theorem container_runs {e : TypeId} (helement : S.catalog.element? t = some e)
    (hfield : Runs S (.field room p (.elements t e)) (b.visit p t)
      (((Task.field room p (.elements t e)).action S).runOn (b.visit p t))) :
    Runs S (.type room p t) b
      (((strategyFor S.catalog t).convert (scopeOf S room p) t).runOn (b.visit p t)) := by
  rw [convert_of_element? helement, BuildM.runOn_bind]
  split
  · rename_i items b' heq
    rw [heq] at hfield
    exact .elements helement hfield
  · rename_i err b' heq
    rw [heq] at hfield
    exact .elementsFailed helement hfield

/-- A record that is completed has its node. -/
private theorem runOn_known {id : NodeId} (hstage : b.progress.stage t = .completed id) :
    (Strategy.convertRecord (scopeOf S room p) t).runOn b = (.ok id, b) := by
  rw [Strategy.convertRecord, BuildM.runOn_bind_ok (BuildM.runOn_stage t b), hstage]
  rfl

/-- A record that is being expanded is put off. -/
private theorem runOn_deferred (hstage : b.progress.stage t = .expanding) :
    (Strategy.convertRecord (scopeOf S room p) t).runOn b =
      (.ok b.arena.next, b.defer S.options.refPrefix t) := by
  rw [Strategy.convertRecord, BuildM.runOn_bind_ok (BuildM.runOn_stage t b), hstage]
  exact BuildM.runOn_placeholderFor _ (Progress.stage_eq_expanding_iff.mp hstage).2

/-- A record that is absent is opened, given its fields, and completed. -/
private theorem runOn_absent (hstage : b.progress.stage t = .absent) :
    (Strategy.convertRecord (scopeOf S room p) t).runOn b =
      (do
        let object ← (Task.fields room p b.arena.next (S.policy S.catalog t)).action S
        let _ ← BuildM.complete S.catalog t object
        return object : BuildM NodeId).runOn (b.openRecord S.catalog t) := by
  rw [Strategy.convertRecord, BuildM.runOn_bind_ok (BuildM.runOn_stage t b), hstage]
  -- starting, naming and storing are the opening of the record
  dsimp only
  rw [Strategy.expand, BuildM.runOn_bind_ok (BuildM.runOn_start S.catalog hstage)]
  simp only [Task.action, bind_assoc, pure_bind]
  rfl

/-- The fields of a record come to the object that they are given to. -/
theorem fields_object {object child : NodeId} {fs : List Field}
    (h : ((Task.fields room p object fs).action S).runOn b = (.ok child, b')) :
    child = object := by
  rw [Task.action, BuildM.runOn_bind] at h
  split at h
  · exact (Except.ok.inj (congrArg Prod.fst h)).symm
  · cases h

/-- If the fields of an absent record are converted by runs, so is the record. -/
private theorem expand_runs (hrecord : S.catalog.isRecord t = true)
    (hstage : b.progress.stage t = .absent)
    (hfields : Runs S (.fields room p b.arena.next (S.policy S.catalog t))
      ((b.visit p t).openRecord S.catalog t)
      (((Task.fields room p b.arena.next (S.policy S.catalog t)).action S).runOn
        ((b.visit p t).openRecord S.catalog t))) :
    Runs S (.type room p t) b
      ((Strategy.convertRecord (scopeOf S room p) t).runOn (b.visit p t)) := by
  have hopen : ((b.visit p t).openRecord S.catalog t).progress.notes? t = some [] :=
    Build.notes?_openRecord S.catalog hstage
  rw [runOn_absent (b := b.visit p t) hstage, Build.arena_visit]
  rcases hrun : ((Task.fields room p b.arena.next (S.policy S.catalog t)).action S).runOn
    ((b.visit p t).openRecord S.catalog t) with ⟨e | object, b'⟩
  · rw [hrun] at hfields
    rw [BuildM.runOn_bind_error hrun]
    exact .expansionFailed hrecord hstage hfields
  · rw [hrun] at hfields
    obtain rfl := fields_object hrun
    -- the record is still being expanded when its fields are done, so it can be completed
    obtain ⟨notes, hnotes⟩ := Option.isSome_iff_exists.mp
      (hfields.isSome_notes? (by rw [hopen]; rfl))
    rw [BuildM.runOn_bind_ok hrun, BuildM.runOn_bind_ok (BuildM.runOn_complete _ _ hnotes)]
    exact .expanded hrecord hstage hfields hnotes

/-- If fields are converted by runs, so is a record, whatever its stage. -/
private theorem record_runs (hrecord : S.catalog.isRecord t = true)
    (hfield : ∀ f b, Runs S (.field room p f) b (((Task.field room p f).action S).runOn b)) :
    Runs S (.type room p t) b
      ((Strategy.convertRecord (scopeOf S room p) t).runOn (b.visit p t)) := by
  cases hstage : (b.visit p t).progress.stage t with
  | completed id =>
    rw [runOn_known hstage]
    exact .known hrecord (Progress.stage_eq_completed_iff.mp hstage)
  | expanding =>
    rw [runOn_deferred hstage]
    exact .deferred hrecord hstage
  | absent => exact expand_runs hrecord hstage (fields_runs _ hfield _ _)

/-- If fields one level further down are converted by runs, so are types. -/
private theorem type_runs
    (hfield : ∀ f b, Runs S (.field room p f) b (((Task.field room p f).action S).runOn b))
    (t : TypeId) (b : Build) :
    Runs S (.type room p t) b (((Task.type room p t).action S).runOn b) := by
  rw [runOn_type]
  -- the shape of the type decides on the strategy
  cases hshape : S.catalog.shape? t with
  | none =>
    have hrecord : S.catalog.isRecord t = true := by simp only [Catalog.isRecord, hshape]
    rw [strategyFor_of_isRecord hrecord]
    exact record_runs hrecord hfield
  | some s =>
    have helement := Catalog.element?_eq_of_shape? hshape
    cases s with
    | scalar k =>
      simp only [strategyFor, hshape, Strategy.scalar]
      exact .scalar hshape
    | enumeration variants =>
      simp only [strategyFor, hshape, Strategy.enumeration]
      exact .enumeration hshape
    | array e => exact container_runs helement (hfield _ _)
    | collection o =>
      cases o with
      | none =>
        simp only [strategyFor, hshape, Strategy.collection]
        exact .unknownElements hshape
      | some e => exact container_runs helement (hfield _ _)
    | record =>
      have hrecord := Catalog.isRecord_of_shape? hshape
      rw [strategyFor_of_isRecord hrecord]
      exact record_runs hrecord hfield

/-- Only the strategy for records tells a field from its type. -/
theorem convertField_eq {c : Catalog} (h : c.isRecord t = false) (scope : Scope)
    (f : Field) :
    (strategyFor c t).convertField scope f = (strategyFor c t).convert scope f.type := by
  rw [Catalog.isRecord] at h
  rw [strategyFor]
  cases hshape : c.shape? t with
  | none => rw [hshape] at h; cases h
  | some s =>
    cases s with
    | scalar k | array e | collection o | enumeration variants => rfl
    | record => rw [hshape] at h; cases h

/-- Converting a field is a run, whatever number of levels is left. -/
private theorem field_runs (room : Nat) (p : Position) (f : Field) (b : Build) :
    Runs S (.field room p f) b (((Task.field room p f).action S).runOn b) := by
  -- on the number of levels, as `visit` is defined
  induction room generalizing p f b with
  | zero => exact .tooDeep
  | succ room ih =>
    have htype := type_runs (ih (p.enter f.name)) f.type b
    rw [runOn_type] at htype
    rw [runOn_field]
    cases hrecord : S.catalog.isRecord f.type with
    | false =>
      rw [convertField_eq hrecord]
      rcases hrun : ((strategyFor S.catalog f.type).convert (scopeOf S room (p.enter f.name))
        f.type).runOn (b.visit (p.enter f.name) f.type) with ⟨e | id, b'⟩
      · rw [hrun] at htype
        exact .fieldFailed htype
      · rw [hrun] at htype
        exact .fieldPlain hrecord htype
    | true =>
      -- the field is converted as its type is, and the node is then referred to
      rw [strategyFor_of_isRecord hrecord] at htype ⊢
      show Runs S _ b ((do
        let id ← Strategy.record.convert (scopeOf S room (p.enter f.name)) f.type
        Strategy.referTo (scopeOf S room (p.enter f.name)) id : BuildM NodeId).runOn _)
      rcases hrun : (Strategy.record.convert (scopeOf S room (p.enter f.name)) f.type).runOn
        (b.visit (p.enter f.name) f.type) with ⟨e | id, b'⟩
      · rw [hrun] at htype
        rw [BuildM.runOn_bind_error hrun]
        exact .fieldFailed htype
      · rw [hrun] at htype
        rw [BuildM.runOn_bind_ok hrun, BuildM.runOn_referTo]
        exact .fieldRecord hrecord htype

end Soundness

/-- Carrying out a task is a run. -/
theorem Task.runs (S : Setting) (task : Task) (b : Build) :
    Runs S task b ((task.action S).runOn b) := by
  cases task with
  | field room p f => exact field_runs room p f b
  | type room p t => exact type_runs (field_runs room p) t b
  | fields room p object fs => exact fields_runs object (field_runs room p) fs b

/-- A run is what carrying out its task does, so a task has one run only. -/
theorem Runs.runOn_eq {S : Setting} {task : Task} {b : Build}
    {r : Except CompileError NodeId × Build} (h : Runs S task b r) :
    (task.action S).runOn b = r := by
  -- on the run; the strategy that is chosen does what the case of the run says
  induction h with
  | tooDeep => rfl
  | fieldPlain hrecord _ ih =>
    rw [runOn_field, convertField_eq hrecord]
    rw [runOn_type] at ih
    exact ih
  | fieldRecord hrecord _ ih =>
    rw [runOn_type, strategyFor_of_isRecord hrecord] at ih
    rw [runOn_field, strategyFor_of_isRecord hrecord]
    exact (BuildM.runOn_bind_ok ih).trans (BuildM.runOn_referTo _ _ _)
  | @fieldFailed room p f b e b' _ ih =>
    rw [runOn_type] at ih
    rw [runOn_field]
    cases hrecord : S.catalog.isRecord f.type with
    | false => rw [convertField_eq hrecord, ih]
    | true =>
      rw [strategyFor_of_isRecord hrecord] at ih ⊢
      exact BuildM.runOn_bind_error ih
  | scalar hshape =>
    rw [runOn_type]
    simp only [strategyFor, hshape, Strategy.scalar]
    rfl
  | enumeration hshape =>
    rw [runOn_type]
    simp only [strategyFor, hshape, Strategy.enumeration]
    rfl
  | unknownElements hshape =>
    rw [runOn_type]
    simp only [strategyFor, hshape, Strategy.collection]
    rfl
  | elements helement _ ih =>
    rw [runOn_type, convert_of_element? helement, BuildM.runOn_bind_ok ih]
    rfl
  | elementsFailed helement _ ih =>
    rw [runOn_type, convert_of_element? helement, BuildM.runOn_bind_error ih]
  | known hrecord hnode =>
    rw [runOn_type, strategyFor_of_isRecord hrecord]
    exact runOn_known (Progress.stage_eq_completed_iff.mpr hnode)
  | deferred hrecord hstage =>
    rw [runOn_type, strategyFor_of_isRecord hrecord]
    exact runOn_deferred hstage
  | @expanded room p t b b' notes hrecord hstage _ hnotes ih =>
    rw [runOn_type, strategyFor_of_isRecord hrecord]
    refine (runOn_absent (b := b.visit p t) hstage).trans ?_
    rw [Build.arena_visit, BuildM.runOn_bind_ok ih]
    exact BuildM.runOn_bind_ok (BuildM.runOn_complete _ _ hnotes)
  | @expansionFailed room p t b e b' hrecord hstage _ ih =>
    rw [runOn_type, strategyFor_of_isRecord hrecord]
    refine (runOn_absent (b := b.visit p t) hstage).trans ?_
    rw [Build.arena_visit, BuildM.runOn_bind_error ih]
  | noFields => rfl
  | nextField _ _ ih ihrest =>
    rw [runOn_fields_cons, ih]
    exact ihrest
  | fieldsFailed _ ih => rw [runOn_fields_cons, ih]

end Schemata.Walk
