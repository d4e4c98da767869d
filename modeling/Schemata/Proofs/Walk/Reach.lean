import Schemata.Proofs.Field
import Schemata.Proofs.Walk.Represents

/-!
# Reachable types

A record leads to the types of its fields, and a container to its elements.  A run gives names to
records only that its task leads to.  Conversely, when no type is left unfinished, the types that
the nodes of a build stand for are closed under these steps, so that every record that they lead to
is completed.

## Key results

- `Runs.reaches`: the types that a run gives names to are reached
- `Covers.of_reaches`: what is reached from a type that nodes stand for is completed
-/

namespace Schemata

/-- One step from a type to those that its schema mentions. -/
inductive FieldPolicy.Edge (policy : FieldPolicy) (c : Catalog) : TypeId → TypeId → Prop where
  /-- A record mentions the types of its fields. -/
  | field {t f} (hshape : c.shape? t = some .record) (hf : f ∈ policy c t) : Edge policy c t f.type
  /-- An array or collection mentions its elements. -/
  | element {t e} (helement : c.element? t = some e) : Edge policy c t e

/-- A type leads to another, by any number of steps. -/
abbrev FieldPolicy.Reaches (policy : FieldPolicy) (c : Catalog) : TypeId → TypeId → Prop :=
  Relation.ReflTransGen (policy.Edge c)

/-- What a type of a closed set leads to is in the set. -/
theorem FieldPolicy.Reaches.of_closed {policy : FieldPolicy} {c : Catalog} {t u : TypeId}
    {known : TypeId → Prop} (h : policy.Reaches c t u)
    (hclosed : ∀ {v w}, known v → policy.Edge c v w → known w) (ht : known t) : known u := by
  induction h with
  | refl => exact ht
  | tail _ hedge ih => exact hclosed ih hedge

/-- What the types of a closed catalog lead to belongs to the catalog. -/
theorem FieldPolicy.Reaches.has {policy : FieldPolicy} {c : Catalog} {t u : TypeId}
    (h : policy.Reaches c t u) (hc : c.Closed) (hpolicy : policy.Closed c) (ht : c.Has t) :
    c.Has u := by
  -- a closed catalog has what its types mention
  refine h.of_closed (fun hv hedge => ?_) ht
  cases hedge with
  | field hshape hf => exact hpolicy hv _ hf
  | element helement => exact hc.element helement

namespace Walk

variable {S : Setting} {task : Task} {b b' : Build} {r : Except CompileError NodeId × Build}
  {t u : TypeId} {id : NodeId}

/-! ## The types that a task is about -/

namespace Task

/-- The types that a task is about. -/
def types : Task → List TypeId
  | .field _ _ f => [f.type]
  | .type _ _ t => [t]
  | .fields _ _ _ fs => fs.map (·.type)

/-- A task is about types of a catalog only. -/
def Within (c : Catalog) (task : Task) : Prop := ∀ t ∈ task.types, c.Has t

variable {policy : FieldPolicy} {c : Catalog} {room : Nat} {p : Position} {object : NodeId}
  {e : TypeId} {f : Field} {fs : List Field}

/-- A type of the catalog is a task about it. -/
theorem within_type (h : c.Has t) : (Task.type room p t).Within c := by
  intro u hu
  rw [List.mem_singleton.mp hu]
  exact h

/-- The elements of a type of a closed catalog belong to it. -/
theorem within_elements (hc : c.Closed) (h : c.element? t = some e) :
    (Task.field room p (.elements t e)).Within c := by
  show (Task.type room p e).Within c
  exact within_type (hc.element h)

/-- So do the types of its fields. -/
theorem within_listed (hpolicy : policy.Closed c) (h : c.Has t) :
    (Task.fields room p object (policy c t)).Within c := by
  intro u hu
  obtain ⟨f, hf, rfl⟩ := List.mem_map.mp hu
  exact hpolicy h f hf

/-- The first of several fields is a task about the catalog. -/
theorem Within.head (h : (Task.fields room p object (f :: fs)).Within c) :
    (Task.field room p f).Within c := by
  show (Task.type room p f.type).Within c
  exact within_type (h f.type List.mem_cons_self)

/-- So are the others. -/
theorem Within.tail (h : (Task.fields room p object (f :: fs)).Within c) :
    (Task.fields room p object fs).Within c :=
  fun u hu => h u (List.mem_cons_of_mem f.type hu)

/-- Some type that a task is about leads to a type. -/
def Reaches (policy : FieldPolicy) (c : Catalog) (task : Task) (u : TypeId) : Prop :=
  ∃ t ∈ task.types, policy.Reaches c t u

/-- What the elements lead to, their container leads to. -/
private theorem Reaches.of_elements (h : (Task.field room p (.elements t e)).Reaches policy c u)
    (helement : c.element? t = some e) : (Task.type room p t).Reaches policy c u := by
  obtain ⟨s, hs, hreach⟩ := h
  rw [List.mem_singleton.mp hs] at hreach
  exact ⟨t, List.mem_singleton_self t, .head (.element helement) hreach⟩

/-- What the fields of a record lead to, the record leads to. -/
private theorem Reaches.of_listed (h : (Task.fields room p object (policy c t)).Reaches policy c u)
    (hshape : c.shape? t = some .record) : (Task.type room p t).Reaches policy c u := by
  obtain ⟨s, hs, hreach⟩ := h
  obtain ⟨f, hf, rfl⟩ := List.mem_map.mp hs
  exact ⟨t, List.mem_singleton_self t, .head (.field hshape hf) hreach⟩

/-- What the first field leads to, all of them together lead to. -/
private theorem Reaches.of_head (h : (Task.field room p f).Reaches policy c u) :
    (Task.fields room p object (f :: fs)).Reaches policy c u := by
  obtain ⟨s, hs, hreach⟩ := h
  rw [List.mem_singleton.mp hs] at hreach
  exact ⟨f.type, List.mem_cons_self, hreach⟩

/-- So it is with what the others lead to. -/
private theorem Reaches.of_tail (h : (Task.fields room p object fs).Reaches policy c u) :
    (Task.fields room p object (f :: fs)).Reaches policy c u := by
  obtain ⟨s, hs, hreach⟩ := h
  exact ⟨s, List.mem_cons_of_mem f.type hs, hreach⟩

end Task

/-! ## Names are given to reached records -/

/-- A type that has a name after a record was opened had one before, or is that record. -/
private theorem types_openRecord (c : Catalog) (h : u ∈ (b.openRecord c t).names.types) :
    u ∈ b.names.types ∨ u = t := by
  simp only [Build.openRecord, NameTable.request] at h
  split at h
  · exact .inl h
  · simpa [NameTable.types] using h

/-- A run gives names only to types that its task leads to. -/
theorem Runs.reaches (h : Runs S task b r) (hc : S.catalog.Closed)
    (hpolicy : S.policy.Closed S.catalog) (htask : task.Within S.catalog)
    (hu : u ∈ r.2.names.types) : u ∈ b.names.types ∨ task.Reaches S.policy S.catalog u := by
  -- on the run; each task is about types that the task around it leads to
  induction h with
  | tooDeep | noFields | scalar | enumeration | unknownElements | known | deferred =>
    exact .inl hu
  | fieldPlain _ _ ih | fieldFailed _ ih => exact ih htask hu
  | fieldRecord _ _ ih =>
    rw [Build.names_refer] at hu
    exact ih htask hu
  | elements helement _ ih | elementsFailed helement _ ih =>
    -- what the elements lead to is one step further away
    cases ih (Task.within_elements hc helement) hu with
    | inl hold => exact .inl hold
    | inr hreach => exact .inr (hreach.of_elements helement)
  | @expanded room p t b b' _ hrecord hstage hfields _ ih
  | @expansionFailed room p t b _ b' hrecord hstage hfields ih =>
    have ht : S.catalog.Has t := htask t (List.mem_singleton_self t)
    cases ih (Task.within_listed hpolicy ht) hu with
    | inl hold =>
      -- the name was there when the fields were begun: it is that of the record, or older
      cases types_openRecord S.catalog hold with
      | inl hold => exact .inl hold
      | inr he => exact .inr ⟨t, List.mem_singleton_self t, he ▸ .refl⟩
    | inr hreach => exact .inr (hreach.of_listed (Catalog.shape?_of_isRecord ht hrecord))
  | nextField _ _ ih ihrest =>
    -- the name came with the later fields, or with the first one, or was there before
    cases ihrest htask.tail hu with
    | inl hold =>
      cases ih htask.head hold with
      | inl hold => exact .inl hold
      | inr hreach => exact .inr hreach.of_head
    | inr hreach => exact .inr hreach.of_tail
  | fieldsFailed _ ih =>
    cases ih htask.head hu with
    | inl hold => exact .inl hold
    | inr hreach => exact .inr hreach.of_head

/-! ## Reached records are completed -/

/-- A build covers a type: it is completed, or some node stands for it. -/
def Covers (S : Setting) (b : Build) (t : TypeId) : Prop :=
  t ∈ b.progress.completedTypes ∨ ∃ id, b.Represents S t id

/-- When no type is left unfinished, a record that is covered is completed. -/
theorem Covers.mem_completedTypes (h : Covers S b t) (hnone : b.progress.expandingTypes = [])
    (hshape : S.catalog.shape? t = some .record) : t ∈ b.progress.completedTypes := by
  rcases h with h | ⟨id, h⟩
  · exact h
  -- a node stands for a record by being its reference, and for no other shape
  · cases h with
    | scalar hother | enumeration hother | unknownElements hother =>
      rw [hshape] at hother
      cases hother
    | elements helement _ _ =>
      have hplain := Catalog.isRecord_of_element? helement
      rw [Catalog.isRecord_of_shape? hshape] at hplain
      cases hplain
    | record _ hheld =>
      rcases hheld with ⟨notes, hnotes, _⟩ | ⟨object, name, hobject, _, _⟩
      · -- nothing waits, since no type is being expanded
        have hmem := Progress.mem_expandingTypes_of_notes hnotes
        rw [hnone] at hmem
        cases hmem
      · exact List.mem_map.mpr ⟨_, hobject, rfl⟩

/-- When no type is left unfinished, what a covered type mentions is covered. -/
theorem Covers.of_edge (h : Covers S b t) (hb : b.Sound S) (hd : Described S b)
    (hnone : b.progress.expandingTypes = []) (hedge : S.policy.Edge S.catalog t u) :
    Covers S b u := by
  cases hedge with
  | @field f hshape hf =>
    -- the record is completed, so its object has a child for the field
    obtain ⟨⟨v, object⟩, hobject, rfl⟩ := List.mem_map.mp (h.mem_completedTypes hnone hshape)
    obtain ⟨name, children, _, hchildren⟩ := hd v object hobject
    obtain ⟨child, _, hchild⟩ := exists_of_forall₂_left hchildren hf
    exact .inr ⟨child, hchild⟩
  | element helement =>
    have hplain := Catalog.isRecord_of_element? helement
    rcases h with hcompleted | ⟨id, h⟩
    · -- only records are completed
      have hname := hb.recorded.types.mem_iff.mp (List.mem_append_left _ hcompleted)
      rw [hb.recorded.record t hname] at hplain
      cases hplain
    · cases h with
      | scalar hother | enumeration hother | unknownElements hother =>
        rw [Catalog.element?_eq_of_shape? hother] at helement
        cases helement
      | elements hsame _ hitems =>
        rw [hsame, Option.some.injEq] at helement
        subst helement
        exact .inr ⟨_, hitems⟩
      | record hrecord _ =>
        rw [hrecord] at hplain
        cases hplain

/-- When no type is left unfinished, what a covered type leads to is covered. -/
theorem Covers.of_reaches (h : Covers S b t) (hb : b.Sound S) (hd : Described S b)
    (hnone : b.progress.expandingTypes = []) (hreach : S.policy.Reaches S.catalog t u) :
    Covers S b u :=
  hreach.of_closed (fun hv hedge => hv.of_edge hb hd hnone hedge) h

end Walk

end Schemata
