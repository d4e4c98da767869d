import Schemata.Proofs.ComponentName
import Schemata.Proofs.Walk.Effect
import Schemata.Proofs.Catalog.Closed

/-!
# Invariants of a build

Two invariants hold of a build while types are converted, however the conversion was cut off.  The
names, the progress, the log and the objects of the build tell the same story (`Build.Recorded`).
The fix-ups that are queued are exactly those that its placeholders wait for (`Build.Waiting`).
Each effect of a step keeps both.

## Key results

- `Recorded.store` / `Recorded.openRecord` / `Recorded.closeRecord`: names and objects stay in step
- `Waiting.refer` / `Waiting.defer` / `Waiting.closeRecord`: placeholders and fix-ups stay paired
-/

namespace Schemata

namespace Build

/-- The names, the progress, the log and the objects of a build tell the same story. -/
structure Recorded (c : Catalog) (b : Build) : Prop where
  /-- A type has a name exactly if it is completed or being expanded, and is never both. -/
  types : (b.progress.completedTypes ++ b.progress.expandingTypes).Perm b.names.types
  types_nodup : b.names.types.Nodup
  names_nodup : b.names.names.Nodup
  /-- The policy was asked about the types that have a name. -/
  listed : b.listed = b.names.types
  record : ∀ t ∈ b.names.types, c.isRecord t = true
  /-- The node of a completed type is the object with its name. -/
  node : ∀ {t id}, (t, id) ∈ b.progress.completed →
    ∃ name, b.names.name? t = some name ∧ b.arena.body? id = some (.object name)
  object_name : ∀ {id name}, b.arena.body? id = some (.object name) → name ∈ b.names.names
  object_inj : ∀ {id id' name}, b.arena.body? id = some (.object name) →
    b.arena.body? id' = some (.object name) → id = id'

/-- The queued fix-ups are those that the placeholders wait for, and references are right. -/
structure Waiting (refPrefix : String) (b : Build) : Prop where
  /-- A queued fix-up names a placeholder. -/
  placeholder : ∀ {t f}, (t, f) ∈ b.progress.queued →
    ∃ id, f = .naming refPrefix id ∧ b.arena.body? id = some (.reference none)
  /-- A placeholder is named by a queued fix-up. -/
  queued : ∀ {id}, b.arena.body? id = some (.reference none) →
    ∃ t, (t, .naming refPrefix id) ∈ b.progress.queued
  /-- No placeholder is named twice. -/
  nodup : (b.progress.queued.map (·.2.node)).Nodup
  /-- A reference with a target refers to the object of a completed type. -/
  resolved : ∀ {id target}, b.arena.body? id = some (.reference (some target)) →
    ∃ t object name, (t, object) ∈ b.progress.completed ∧
      b.arena.body? object = some (.object name) ∧ target = refPrefix ++ name

/-! ## Bodies after a change -/

variable {c : Catalog} {b b' : Build} {refPrefix : String} {id : NodeId}

/-- A node that is stored has a new place. -/
theorem body?_store (n : Node) :
    (b.store n).arena.body? id = if id = b.arena.next then some n.body else b.arena.body? id := by
  rw [store, Arena.body?, Arena.get?_push]
  split <;> rfl

theorem body?_store_of_some {n : Node} {body : Body} (h : b.arena.body? id = some body) :
    (b.store n).arena.body? id = some body := by
  have hne : id ≠ b.arena.next := Arena.ne_next_of_lt (Arena.index_lt_of_body? h)
  rw [body?_store, if_neg hne, h]

/-- A node that has a body other than the one just stored was there before. -/
private theorem body?_of_store {n : Node} {body : Body} (h : (b.store n).arena.body? id = some body)
    (hne : n.body ≠ body) : b.arena.body? id = some body := by
  rw [body?_store] at h
  split at h
  · exact absurd (Option.some.inj h) hne
  · exact h

/-- A record without a name is opened under a fresh one, as an object with that name. -/
theorem exists_openRecord_of_none {t : TypeId} (h : b.names.name? t = none) :
    ∃ name, name ∉ b.names.names ∧
      (b.openRecord c t).names.entries = b.names.entries ++ [(t, name)] ∧
      (b.openRecord c t).arena = (b.store (.object name)).arena := by
  refine ⟨_, NameTable.fresh_notMem b.names.names (c.simpleName t) (c.name t), ?_, ?_⟩
  · rw [openRecord, NameTable.request_of_none h]
  · rw [openRecord, NameTable.request_of_none h, store]

/-- An object is no placeholder. -/
theorem notMem_of_object {object : NodeId} {name : String} {ids : List NodeId}
    (hbody : b.arena.body? object = some (.object name))
    (hids : ∀ id ∈ ids, b.arena.body? id = some (.reference none)) : object ∉ ids := by
  intro hmem
  rw [hids object hmem] at hbody
  cases hbody

/-- Closing a record turns the placeholders that wait for it into references, and changes no other
node. -/
theorem get?_closeRecord {t : TypeId} {object : NodeId} {name : String} {ids : List NodeId}
    (hbody : b.arena.body? object = some (.object name))
    (hids : ∀ id ∈ ids, b.arena.body? id = some (.reference none)) (id : NodeId) :
    (b.closeRecord t object (ids.map (Fixup.naming refPrefix))).arena.get? id =
      if id ∈ ids then some (.reference (refPrefix ++ name)) else b.arena.get? id := by
  -- on whether the node is one of the placeholders
  split
  · rename_i hid
    obtain ⟨node, hnode, hobject⟩ := Arena.exists_get?_of_body? hbody
    have htarget : node.refTarget? refPrefix = some (refPrefix ++ name) := by
      simp only [Node.refTarget?, Node.name?, hobject, Option.map_some]
    exact Fixup.get?_runAll_naming hnode htarget (notMem_of_object hbody hids) hid
      (Arena.index_lt_of_body? (hids id hid))
  · rename_i hid
    refine Fixup.get?_runAll_of_notMem fun f hf he => hid ?_
    obtain ⟨i, hi, rfl⟩ := List.mem_map.mp hf
    exact Option.some.inj he ▸ hi

/-- The bodies after a record is closed. -/
theorem body?_closeRecord {t : TypeId} {object : NodeId} {name : String} {ids : List NodeId}
    (hbody : b.arena.body? object = some (.object name))
    (hids : ∀ id ∈ ids, b.arena.body? id = some (.reference none)) (id : NodeId) :
    (b.closeRecord t object (ids.map (Fixup.naming refPrefix))).arena.body? id =
      if id ∈ ids then some (.reference (some (refPrefix ++ name))) else b.arena.body? id := by
  rw [Arena.body?, get?_closeRecord hbody hids]
  split <;> rfl

/-- The objects after a record is closed are those before. -/
theorem body?_closeRecord_object_iff {t : TypeId} {object : NodeId} {name other : String}
    {ids : List NodeId} (hbody : b.arena.body? object = some (.object name))
    (hids : ∀ id ∈ ids, b.arena.body? id = some (.reference none)) :
    (b.closeRecord t object (ids.map (Fixup.naming refPrefix))).arena.body? id =
      some (.object other) ↔ b.arena.body? id = some (.object other) := by
  rw [body?_closeRecord hbody hids]
  split
  · rename_i hid
    rw [hids id hid]
    simp
  · exact Iff.rfl

/-! ## Names, progress, log and objects -/

namespace Recorded

/-- An empty build records nothing. -/
theorem empty (c : Catalog) : Recorded c {} where
  types := List.Perm.refl []
  types_nodup := List.nodup_nil
  names_nodup := List.nodup_nil
  listed := rfl
  record _ h := nomatch h
  node h := nomatch h
  object_name h := by simp [Arena.body?, Arena.get?] at h
  object_inj h := by simp [Arena.body?, Arena.get?] at h

/-- No type is both completed and being expanded. -/
theorem consistent (h : b.Recorded c) : b.progress.Consistent :=
  h.types.nodup_iff.mpr h.types_nodup

theorem completedTypes_nodup (h : b.Recorded c) : b.progress.completedTypes.Nodup :=
  h.consistent.completedTypes_nodup

theorem expandingTypes_nodup (h : b.Recorded c) : b.progress.expandingTypes.Nodup :=
  h.consistent.expandingTypes_nodup

/-- A completed type is found with its node. -/
theorem node?_of_mem (h : b.Recorded c) {t : TypeId} (hmem : (t, id) ∈ b.progress.completed) :
    b.progress.node? t = some id :=
  h.consistent.node?_eq_some_iff.mpr hmem

/-- Completed types whose nodes are objects with the same name are the same, and so are the
nodes. -/
theorem eq_of_object (h : b.Recorded c) {t u : TypeId} {id id' : NodeId} {name : String}
    (ht : (t, id) ∈ b.progress.completed) (hu : (u, id') ∈ b.progress.completed)
    (hbody : b.arena.body? id = some (.object name))
    (hbody' : b.arena.body? id' = some (.object name)) : (t, id) = (u, id') := by
  -- both types have the name of their object, and a name belongs to one type
  obtain ⟨name₁, hname, hbody₁⟩ := h.node ht
  obtain ⟨name₂, hname', hbody₂⟩ := h.node hu
  rw [hbody, Option.some.injEq, Body.object.injEq] at hbody₁
  rw [hbody', Option.some.injEq, Body.object.injEq] at hbody₂
  subst hbody₁ hbody₂
  rw [NameTable.eq_of_name?_eq h.names_nodup hname hname', h.object_inj hbody hbody']

/-- An absent type has no name. -/
theorem name?_of_absent (h : b.Recorded c) {t : TypeId} (ht : b.progress.stage t = .absent) :
    b.names.name? t = none := by
  rw [NameTable.name?_eq_none_iff, ← h.types.mem_iff, List.mem_append, not_or]
  exact Progress.stage_eq_absent_iff_notMem.mp ht

/-- What is recorded stays so if only nodes that are no objects change. -/
theorem congr (h : b.Recorded c) (hnames : b'.names = b.names) (hlisted : b'.listed = b.listed)
    (hcompleted : b'.progress.completed = b.progress.completed)
    (hexpanding : b'.progress.expandingTypes = b.progress.expandingTypes)
    (hobject : ∀ {id name}, b'.arena.body? id = some (.object name) ↔
      b.arena.body? id = some (.object name)) : b'.Recorded c where
  types := by
    rw [Progress.completedTypes, hcompleted, hexpanding, hnames]
    exact h.types
  types_nodup := hnames ▸ h.types_nodup
  names_nodup := hnames ▸ h.names_nodup
  listed := by rw [hlisted, hnames, h.listed]
  record := hnames ▸ h.record
  node hmem := by
    rw [hcompleted] at hmem
    obtain ⟨name, hname, hbody⟩ := h.node hmem
    exact ⟨name, by rw [hnames, hname], hobject.mpr hbody⟩
  object_name hbody := by
    rw [hnames]
    exact h.object_name (hobject.mp hbody)
  object_inj hbody hbody' := h.object_inj (hobject.mp hbody) (hobject.mp hbody')

/-- Storing a node that is no object changes no object. -/
private theorem object_store_iff {n : Node} (hn : ∀ name, n.body ≠ .object name) {name : String} :
    (b.store n).arena.body? id = some (.object name) ↔ b.arena.body? id = some (.object name) :=
  ⟨fun h => body?_of_store h (hn name), body?_store_of_some⟩

/-- Storing a node that is no object keeps the records consistent. -/
theorem store (h : b.Recorded c) {n : Node} (hn : ∀ name, n.body ≠ .object name) :
    (b.store n).Recorded c :=
  h.congr rfl rfl rfl rfl (object_store_iff hn)

/-- So does putting a type off, since a placeholder is no object. -/
theorem defer (h : b.Recorded c) (refPrefix : String) (t : TypeId) :
    (b.defer refPrefix t).Recorded c :=
  h.congr rfl rfl rfl Progress.expandingTypes_noted
    (object_store_iff (n := .placeholder) fun _ he => nomatch he)

/-- Opening an absent record keeps them consistent, since no object has the name that is given. -/
theorem openRecord (h : b.Recorded c) {t : TypeId} (hrecord : c.isRecord t = true)
    (hstage : b.progress.stage t = .absent) : (b.openRecord c t).Recorded c := by
  have hname := h.name?_of_absent hstage
  have hnot : t ∉ b.names.types := NameTable.name?_eq_none_iff.mp hname
  -- the name that is given is fresh, so the object that is stored is the only one with it
  obtain ⟨fresh, hfresh, hentries, harena⟩ := exists_openRecord_of_none (c := c) hname
  have htypes : (b.openRecord c t).names.types = b.names.types ++ [t] := by
    simp [NameTable.types, hentries]
  have hnames : (b.openRecord c t).names.names = b.names.names ++ [fresh] := by
    simp [NameTable.names, hentries]
  have hbody : ∀ {id body}, (b.openRecord c t).arena.body? id = some body →
      (id = b.arena.next ∧ body = .object fresh) ∨ b.arena.body? id = some body := by
    intro id body hid
    rw [harena, body?_store] at hid
    split at hid
    · exact .inl ⟨‹_›, (Option.some.inj hid).symm⟩
    · exact .inr hid
  -- clause by clause; the new type, name and object come last
  constructor
  case types =>
    have hexpanding : (b.openRecord c t).progress.expandingTypes =
        b.progress.expandingTypes ++ [t] := Progress.expandingTypes_started
    rw [htypes, hexpanding, ← List.append_assoc]
    exact h.types.append_right [t]
  case types_nodup =>
    rw [htypes]
    exact h.types_nodup.append (List.nodup_singleton t) (by simpa using hnot)
  case names_nodup =>
    rw [hnames]
    exact h.names_nodup.append (List.nodup_singleton fresh) (by simpa using hfresh)
  case listed => rw [listed_openRecord, htypes, h.listed]
  case record =>
    intro u hu
    rw [htypes, List.mem_append, List.mem_singleton] at hu
    cases hu with
    | inl hu => exact h.record u hu
    | inr hu => rw [hu, hrecord]
  case node =>
    intro u id hmem
    obtain ⟨name, hu, hid⟩ := h.node hmem
    refine ⟨name, NameTable.name?_of_prefix ?_ hu, body?_store_of_some hid⟩
    rw [hentries]
    exact List.prefix_append _ _
  case object_name =>
    intro id name hid
    rw [hnames, List.mem_append]
    rcases hbody hid with ⟨_, he⟩ | hid
    · cases he
      exact .inr (List.mem_singleton_self fresh)
    · exact .inl (h.object_name hid)
  case object_inj =>
    intro id id' name hid hid'
    -- an old object does not have the fresh name
    rcases hbody hid with ⟨rfl, he⟩ | hold <;> rcases hbody hid' with ⟨rfl, he'⟩ | hold'
    · rfl
    · cases he
      exact absurd (h.object_name hold') hfresh
    · cases he'
      exact absurd (h.object_name hold) hfresh
    · exact h.object_inj hold hold'

/-- So does closing a record whose object has its name. -/
theorem closeRecord (h : b.Recorded c) {t : TypeId} {object : NodeId} {name : String}
    {ids : List NodeId} (ht : t ∈ b.progress.expandingTypes) (hname : b.names.name? t = some name)
    (hbody : b.arena.body? object = some (.object name))
    (hids : ∀ id ∈ ids, b.arena.body? id = some (.reference none)) :
    (b.closeRecord t object (ids.map (Fixup.naming refPrefix))).Recorded c := by
  -- the type goes from one list to the other, and no name and no object changes
  constructor
  case types =>
    exact (Progress.types_finished h.expandingTypes_nodup ht).trans h.types
  case types_nodup => exact h.types_nodup
  case names_nodup => exact h.names_nodup
  case listed =>
    rw [listed_closeRecord, h.listed]
    rfl
  case record => exact h.record
  case node =>
    intro u id hmem
    rw [completed_closeRecord, List.mem_append, List.mem_singleton] at hmem
    cases hmem with
    | inl hmem =>
      obtain ⟨other, hother, hid⟩ := h.node hmem
      exact ⟨other, hother, (body?_closeRecord_object_iff hbody hids).mpr hid⟩
    | inr he =>
      cases he
      exact ⟨name, hname, (body?_closeRecord_object_iff hbody hids).mpr hbody⟩
  case object_name =>
    intro id other hid
    exact h.object_name ((body?_closeRecord_object_iff hbody hids).mp hid)
  case object_inj =>
    intro id id' other hid hid'
    exact h.object_inj ((body?_closeRecord_object_iff hbody hids).mp hid)
      ((body?_closeRecord_object_iff hbody hids).mp hid')

end Recorded

/-! ## Placeholders and fix-ups -/

namespace Waiting

/-- In an empty build nothing waits. -/
theorem empty (refPrefix : String) : Waiting refPrefix {} where
  placeholder h := nomatch h
  queued h := by simp [Arena.body?, Arena.get?] at h
  nodup := List.nodup_nil
  resolved h := by simp [Arena.body?, Arena.get?] at h

/-- A placeholder waits for one type only. -/
private theorem eq_of_mem_queued (h : b.Waiting refPrefix) {t u : TypeId}
    (ht : (t, .naming refPrefix id) ∈ b.progress.queued)
    (hu : (u, .naming refPrefix id) ∈ b.progress.queued) : t = u :=
  congrArg Prod.fst (List.inj_on_of_nodup_map h.nodup ht hu rfl)

/-- Placeholders and fix-ups stay paired if neither changes, and no object goes away. -/
theorem congr (h : b.Waiting refPrefix) (hqueued : b'.progress.queued = b.progress.queued)
    (hcompleted : b'.progress.completed = b.progress.completed)
    (hreference : ∀ {id target}, b'.arena.body? id = some (.reference target) ↔
      b.arena.body? id = some (.reference target))
    (hobject : ∀ {id name}, b.arena.body? id = some (.object name) →
      b'.arena.body? id = some (.object name)) : b'.Waiting refPrefix where
  placeholder hmem := by
    rw [hqueued] at hmem
    obtain ⟨id, hf, hid⟩ := h.placeholder hmem
    exact ⟨id, hf, hreference.mpr hid⟩
  queued hid := by
    rw [hqueued]
    exact h.queued (hreference.mp hid)
  nodup := hqueued ▸ h.nodup
  resolved hid := by
    obtain ⟨t, object, name, hmem, hbody, htarget⟩ := h.resolved (hreference.mp hid)
    exact ⟨t, object, name, hcompleted ▸ hmem, hobject hbody, htarget⟩

/-- Storing a node that is no reference changes no reference. -/
private theorem reference_store_iff {n : Node} (hn : ∀ target, n.body ≠ .reference target)
    {target : Option String} :
    (b.store n).arena.body? id = some (.reference target) ↔
      b.arena.body? id = some (.reference target) :=
  ⟨fun h => body?_of_store h (hn target), body?_store_of_some⟩

/-- Storing a node that is no reference keeps placeholders and fix-ups paired. -/
theorem store (h : b.Waiting refPrefix) {n : Node} (hn : ∀ target, n.body ≠ .reference target) :
    (b.store n).Waiting refPrefix :=
  h.congr rfl rfl (reference_store_iff hn) body?_store_of_some

/-- A reference to the object of a completed type needs no fix-up. -/
theorem refer (h : b.Waiting refPrefix) {t : TypeId} {object : NodeId} {name : String}
    (hnode : (t, object) ∈ b.progress.completed)
    (hbody : b.arena.body? object = some (.object name)) :
    (b.store (.reference (refPrefix ++ name))).Waiting refPrefix where
  placeholder hmem := by
    obtain ⟨id, hf, hid⟩ := h.placeholder hmem
    exact ⟨id, hf, body?_store_of_some hid⟩
  queued hid := h.queued (body?_of_store hid fun he => nomatch he)
  nodup := h.nodup
  resolved {id target} hid := by
    rw [body?_store] at hid
    split at hid
    · cases hid
      exact ⟨t, object, name, hnode, body?_store_of_some hbody, rfl⟩
    · obtain ⟨u, other, name', hmem, hother, htarget⟩ := h.resolved hid
      exact ⟨u, other, name', hmem, body?_store_of_some hother, htarget⟩

/-- Opening a record keeps them paired, since an object is no reference. -/
theorem openRecord (h : b.Waiting refPrefix) (c : Catalog) (t : TypeId) :
    (b.openRecord c t).Waiting refPrefix :=
  h.congr Progress.queued_started rfl
    (reference_store_iff (n := .object (b.names.request c t).1) fun _ he => nomatch he)
    body?_store_of_some

/-- Putting a type off queues the fix-up for the placeholder that is stored. -/
theorem defer (h : b.Waiting refPrefix) (hnodup : b.progress.expandingTypes.Nodup) {t : TypeId}
    (ht : t ∈ b.progress.expandingTypes) : (b.defer refPrefix t).Waiting refPrefix := by
  have hqueued : (b.defer refPrefix t).progress.queued.Perm
      (b.progress.queued ++ [(t, .naming refPrefix b.arena.next)]) :=
    Progress.queued_noted hnodup ht
  have hbody : ∀ id, (b.defer refPrefix t).arena.body? id =
      if id = b.arena.next then some (.reference none) else b.arena.body? id :=
    fun id => body?_store .placeholder
  have hkeep : ∀ {id body}, b.arena.body? id = some body →
      (b.defer refPrefix t).arena.body? id = some body :=
    fun hid => body?_store_of_some hid
  -- the new fix-up is queued for the new placeholder, and both come last
  constructor
  case placeholder =>
    intro u f hmem
    rw [hqueued.mem_iff, List.mem_append, List.mem_singleton] at hmem
    cases hmem with
    | inl hmem =>
      obtain ⟨id, hf, hid⟩ := h.placeholder hmem
      exact ⟨id, hf, hkeep hid⟩
    | inr he =>
      cases he
      exact ⟨b.arena.next, rfl, by rw [hbody, if_pos rfl]⟩
  case queued =>
    intro id hid
    rw [hbody] at hid
    split at hid
    · rename_i he
      subst he
      exact ⟨t, hqueued.mem_iff.mpr (List.mem_append_right _ (List.mem_singleton_self _))⟩
    · obtain ⟨u, hu⟩ := h.queued hid
      exact ⟨u, hqueued.mem_iff.mpr (List.mem_append_left _ hu)⟩
  case nodup =>
    -- the new placeholder has a place that no queued fix-up names
    have hnew : some b.arena.next ∉ b.progress.queued.map (·.2.node) := by
      intro hmem
      obtain ⟨⟨u, f⟩, he, hf⟩ := List.mem_map.mp hmem
      obtain ⟨id, rfl, hid⟩ := h.placeholder he
      exact Arena.ne_next_of_lt (Arena.index_lt_of_body? hid) (Option.some.inj hf)
    rw [(hqueued.map _).nodup_iff, List.map_append]
    exact h.nodup.append (List.nodup_singleton _) (List.disjoint_singleton.mpr hnew)
  case resolved =>
    intro id target hid
    rw [hbody] at hid
    split at hid
    · cases hid
    · obtain ⟨u, object, name, hmem, hobject, htarget⟩ := h.resolved hid
      exact ⟨u, object, name, hmem, hkeep hobject, htarget⟩

/-- When a record is closed, all placeholders that wait for it are filled, and no others. -/
theorem closeRecord (h : b.Waiting refPrefix) (hnodup : b.progress.expandingTypes.Nodup)
    {t : TypeId} {object : NodeId} {name : String} {ids : List NodeId}
    (hnotes : b.progress.notes? t = some (ids.map (Fixup.naming refPrefix)))
    (hbody : b.arena.body? object = some (.object name))
    (hids : ∀ id ∈ ids, b.arena.body? id = some (.reference none)) :
    (b.closeRecord t object (ids.map (Fixup.naming refPrefix))).Waiting refPrefix := by
  have hqueued : (b.closeRecord t object (ids.map (Fixup.naming refPrefix))).progress.queued =
      b.progress.queued.filter (·.1 ≠ t) := Progress.queued_finished
  -- the fix-ups that are handed over are those that were queued for the record
  have hwaits : ∀ id, (t, .naming refPrefix id) ∈ b.progress.queued ↔ id ∈ ids := by
    intro id
    rw [Progress.mem_queued_iff hnodup]
    constructor
    · rintro ⟨notes, hsome, hmem⟩
      rw [hnotes, Option.some.injEq] at hsome
      subst hsome
      obtain ⟨i, hi, he⟩ := List.mem_map.mp hmem
      rwa [← Option.some.inj (congrArg Fixup.node he)]
    · intro hid
      exact ⟨_, hnotes, List.mem_map.mpr ⟨id, hid, rfl⟩⟩
  -- what was queued for the record is gone, and so are its placeholders
  constructor
  case placeholder =>
    intro u f hmem
    rw [hqueued, List.mem_filter] at hmem
    obtain ⟨id, rfl, hid⟩ := h.placeholder hmem.1
    refine ⟨id, rfl, ?_⟩
    rw [body?_closeRecord hbody hids, if_neg, hid]
    -- it is not filled, since it waits for another type
    intro hin
    have he := h.eq_of_mem_queued hmem.1 ((hwaits id).mpr hin)
    exact of_decide_eq_true hmem.2 he
  case queued =>
    intro id hid
    rw [body?_closeRecord hbody hids] at hid
    split at hid
    · cases hid
    · rename_i hnot
      obtain ⟨u, hu⟩ := h.queued hid
      have hne : u ≠ t := by
        rintro rfl
        exact hnot ((hwaits id).mp hu)
      refine ⟨u, ?_⟩
      rw [hqueued, List.mem_filter]
      exact ⟨hu, decide_eq_true hne⟩
  case nodup =>
    rw [hqueued]
    exact h.nodup.sublist (List.filter_sublist.map _)
  case resolved =>
    intro id target hid
    rw [body?_closeRecord hbody hids] at hid
    split at hid
    · -- a placeholder that is filled now
      cases hid
      exact ⟨t, object, name, mem_completed_closeRecord,
        (body?_closeRecord_object_iff hbody hids).mpr hbody, rfl⟩
    · obtain ⟨u, other, name', hmem, hother, htarget⟩ := h.resolved hid
      exact ⟨u, other, name', mem_completed_closeRecord_of_mem hmem,
        (body?_closeRecord_object_iff hbody hids).mpr hother, htarget⟩

end Waiting

end Build

end Schemata
