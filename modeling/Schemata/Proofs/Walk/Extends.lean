import Schemata.Proofs.ComponentName
import Schemata.Proofs.Walk.Runs

/-!
# What a run leaves alone

A run only adds to a build.  Nodes that are stored stay as they are; only the object whose fields
are being converted is given properties, and even then it stays the same object.  Completed types
keep their nodes, names stay given, and the fix-ups of types that were being expanded before the run
wait on.

## Key results

- `Runs.extends`: the build after a run extends the build before
- `Runs.expandingTypes_eq`: a run that ends well leaves no type unfinished that it started
-/

namespace Schemata

/-- `b'` comes from `b` by additions; the nodes of `b` stay, but for the properties of `own`. -/
structure Build.Extends (refPrefix : String) (own : Option NodeId) (b b' : Build) : Prop where
  size_le : b.arena.size ≤ b'.arena.size
  get?_eq : ∀ {id}, id.index < b.arena.size → own ≠ some id →
    b'.arena.get? id = b.arena.get? id
  body?_eq : ∀ {id}, id.index < b.arena.size → b'.arena.body? id = b.arena.body? id
  /-- The nodes of types completed since are new. -/
  completed : ∃ new, b'.progress.completed = b.progress.completed ++ new ∧
    ∀ e ∈ new, b.arena.size ≤ e.2.index
  names : b.names.entries <+: b'.names.entries
  /-- The fix-ups left since are for new placeholders. -/
  notes : ∀ {t ns}, b.progress.notes? t = some ns → ∃ ids : List NodeId,
    b'.progress.notes? t = some (ns ++ ids.map (Fixup.naming refPrefix)) ∧
      ∀ id ∈ ids, b.arena.size ≤ id.index

namespace Build.Extends

variable {refPrefix : String} {own own' : Option NodeId} {b b' b'' : Build}

private theorem refl (b : Build) : b.Extends refPrefix own b where
  size_le := Nat.le_refl _
  get?_eq _ _ := rfl
  body?_eq _ := rfl
  completed := ⟨[], (List.append_nil _).symm, fun _ h => nomatch h⟩
  names := List.prefix_rfl
  notes h := ⟨[], by simpa using h, fun _ h => nomatch h⟩

/-- Additions to additions are additions.  The second ones may give properties to a node that the
first ones stored. -/
private theorem trans_own (h : b.Extends refPrefix own b') (h' : b'.Extends refPrefix own' b'')
    (hown : ∀ id, own' = some id → own = some id ∨ b.arena.size ≤ id.index) :
    b.Extends refPrefix own b'' where
  size_le := Nat.le_trans h.size_le h'.size_le
  get?_eq {id} hid hne := by
    -- a node that only the second ones may change is new, so it is not this one
    have hne' : own' ≠ some id := by
      intro he
      cases hown id he with
      | inl hown => exact hne hown
      | inr hle => omega
    rw [h'.get?_eq (Nat.lt_of_lt_of_le hid h.size_le) hne', h.get?_eq hid hne]
  body?_eq hid := by
    rw [h'.body?_eq (Nat.lt_of_lt_of_le hid h.size_le), h.body?_eq hid]
  completed := by
    obtain ⟨new, hnew, hle⟩ := h.completed
    -- later types come after earlier ones, and have later nodes
    obtain ⟨new', hnew', hle'⟩ := h'.completed
    refine ⟨new ++ new', by rw [hnew', hnew, List.append_assoc], fun e he => ?_⟩
    cases List.mem_append.mp he with
    | inl he => exact hle e he
    | inr he => exact Nat.le_trans h.size_le (hle' e he)
  names := h.names.trans h'.names
  notes ht := by
    obtain ⟨ids, hids, hle⟩ := h.notes ht
    obtain ⟨ids', hids', hle'⟩ := h'.notes hids
    refine ⟨ids ++ ids', by rw [hids', List.map_append, List.append_assoc], fun id hid => ?_⟩
    cases List.mem_append.mp hid with
    | inl hid => exact hle id hid
    | inr hid => exact Nat.le_trans h.size_le (hle' id hid)

private theorem trans (h : b.Extends refPrefix own b') (h' : b'.Extends refPrefix own b'') :
    b.Extends refPrefix own b'' :=
  h.trans_own h' fun _ he => .inl he

/-- Additions that leave all nodes alone are additions whatever node may be given properties. -/
private theorem weaken (h : b.Extends refPrefix none b') : b.Extends refPrefix own b' :=
  { h with get?_eq := fun hid _ => h.get?_eq hid (fun he => nomatch he) }

/-! ## Steps are additions

Each effect of a step is an addition.  Only properties are added to a node that is there. -/

private theorem visit (p : Position) (t : TypeId) : b.Extends refPrefix own (b.visit p t) :=
  { refl b with }

private theorem store (n : Node) : b.Extends refPrefix own (b.store n) :=
  { (refl b : b.Extends refPrefix own b) with
    size_le := by rw [Build.store, Arena.size_push]; omega
    get?_eq := fun hid _ => Arena.get?_push_of_lt n hid
    body?_eq := fun hid => by rw [Build.store, Arena.body?, Arena.get?_push_of_lt n hid]; rfl }

private theorem refer (id : NodeId) : b.Extends refPrefix own (b.refer refPrefix id).2 := by
  rcases b.refer_eq_or_store refPrefix id with h | ⟨n, h⟩
  · rw [h]
    exact refl b
  · rw [h]
    exact store n

private theorem defer (t : TypeId) : b.Extends refPrefix own (b.defer refPrefix t) :=
  { (store .placeholder : b.Extends refPrefix own _) with
    completed := ⟨[], (List.append_nil _).symm, fun _ h => nomatch h⟩
    names := List.prefix_rfl
    notes := fun {u ns} hu => by
      rw [Build.notes?_defer, hu]
      split
      · -- the fix-up that is left is for the placeholder that was just stored
        refine ⟨[b.arena.next], rfl, fun id hid => ?_⟩
        rw [List.mem_singleton.mp hid]
        exact Nat.le_refl _
      · refine ⟨[], by simp, ?_⟩
        intro _ hid
        cases hid }

private theorem openRecord (c : Catalog) (t : TypeId) :
    b.Extends refPrefix own (b.openRecord c t) :=
  { (store (.object (b.names.request c t).1) : b.Extends refPrefix own _) with
    completed := ⟨[], (List.append_nil _).symm, fun _ h => nomatch h⟩
    names := by
      show _ <+: (b.names.request c t).2.entries
      rw [NameTable.request]
      split
      · exact List.prefix_rfl
      · exact List.prefix_append _ _
    notes := fun hu => ⟨[], by rw [Build.notes?_openRecord_of_some c hu]; simp,
      fun _ h => nomatch h⟩ }

private theorem visit_openRecord (c : Catalog) (p : Position) (t : TypeId) :
    b.Extends refPrefix own ((b.visit p t).openRecord c t) :=
  (visit p t).trans (openRecord c t)

/-- Properties of the next node are additions to a build, since that node is new. -/
private theorem trans_next (h : b.Extends refPrefix own b')
    (h' : b'.Extends refPrefix (some b.arena.next) b'') : b.Extends refPrefix own b'' := by
  -- the object of the record is at the next place, which no node of before has
  refine h.trans_own h' fun id he => .inr ?_
  rw [← Option.some.inj he]
  exact Nat.le_refl _

theorem setProperty (object : NodeId) (name : String) (child : NodeId) :
    b.Extends refPrefix (some object) (b.setProperty object name child) :=
  { (refl b : b.Extends refPrefix (some object) b) with
    -- the properties of one object change, and no body
    size_le := Nat.le_of_eq (Arena.size_modify b.arena object _).symm
    get?_eq := fun _ hne => by
      rw [Build.setProperty, Arena.get?_modify, if_neg fun he => hne (congrArg some he)]
    body?_eq := fun _ => Arena.body?_modify_addProperty _ _ _ _ _ }

/-- A record that is closed is an addition to any build in which it was absent. -/
private theorem closeRecord {t : TypeId} {object : NodeId} {ids : List NodeId}
    (h : b.Extends refPrefix none b') (ht : b.progress.notes? t = none)
    (hobject : b.arena.size ≤ object.index) (hids : ∀ id ∈ ids, b.arena.size ≤ id.index) :
    b.Extends refPrefix none
      (b'.closeRecord t object (ids.map (Fixup.naming refPrefix))) := by
  -- the placeholders that are filled are new, so no old node changes
  have hget : ∀ {id : NodeId}, id.index < b.arena.size →
      (b'.closeRecord t object (ids.map (Fixup.naming refPrefix))).arena.get? id =
        b'.arena.get? id := by
    intro id hid
    refine Fixup.get?_runAll_of_notMem fun f hf he => ?_
    obtain ⟨i, hi, rfl⟩ := List.mem_map.mp hf
    have hle := hids i hi
    rw [Option.some.inj he] at hle
    omega
  refine { h with size_le := ?_, get?_eq := ?_, body?_eq := ?_, completed := ?_, notes := ?_ }
  · rw [Build.closeRecord, Fixup.size_runAll]
    exact h.size_le
  · intro id hid hne
    rw [hget hid, h.get?_eq hid hne]
  · intro id hid
    rw [Arena.body?, hget hid]
    exact h.body?_eq hid
  · obtain ⟨new, hnew, hle⟩ := h.completed
    refine ⟨new ++ [(t, object)], ?_, fun e he => ?_⟩
    · rw [Build.closeRecord, Progress.completed_finished, hnew, List.append_assoc]
    · rcases List.mem_append.mp he with he | he
      · exact hle e he
      · rw [List.mem_singleton.mp he]
        exact hobject
  · intro u ns hu
    have hne : t ≠ u := by
      rintro rfl
      rw [ht] at hu
      cases hu
    obtain ⟨more, hmore, hle⟩ := h.notes hu
    exact ⟨more, by rw [Build.notes?_closeRecord hne, hmore], hle⟩

/-- All fix-ups that wait for a record since it was opened are for placeholders stored since. -/
theorem notes_since {c : Catalog} {t : TypeId} {notes : List Fixup}
    (h : (b.openRecord c t).Extends refPrefix own b') (hstage : b.progress.stage t = .absent)
    (hnotes : b'.progress.notes? t = some notes) :
    ∃ ids : List NodeId, notes = ids.map (Fixup.naming refPrefix) ∧
      ∀ id ∈ ids, (b.openRecord c t).arena.size ≤ id.index := by
  obtain ⟨ids, hids, hle⟩ := h.notes (notes?_openRecord c hstage)
  rw [hnotes, List.nil_append, Option.some.injEq] at hids
  exact ⟨ids, hids, hle⟩

end Build.Extends

namespace Walk

/-- The object whose fields a task converts. -/
def Task.own : Task → Option NodeId
  | .fields _ _ object _ => some object
  | .field .. | .type .. => none

variable {S : Setting} {task : Task} {b : Build} {r : Except CompileError NodeId × Build}

/-- The build after a run extends the build before. -/
theorem Runs.extends (h : Runs S task b r) : b.Extends S.options.refPrefix task.own r.2 := by
  -- on the run; the object of a record is new, so its properties count as an addition
  induction h with
  | tooDeep | noFields => exact .refl _
  | fieldPlain _ _ ih | fieldFailed _ ih => exact ih
  | fieldRecord _ _ ih => exact ih.trans (.refer _)
  | scalar | enumeration | unknownElements => exact (Build.Extends.visit _ _).trans (.store _)
  | elements _ _ ih => exact ((Build.Extends.visit _ _).trans ih).trans (.store _)
  | elementsFailed _ _ ih => exact (Build.Extends.visit _ _).trans ih
  | known => exact .visit _ _
  | deferred => exact (Build.Extends.visit _ _).trans (.defer _)
  | @expanded room p t b b' notes hrecord hstage hfields hnotes ih =>
    have hopened : b.Extends S.options.refPrefix none ((b.visit p t).openRecord S.catalog t) :=
      .visit_openRecord S.catalog p t
    obtain ⟨ids, rfl, hle⟩ := ih.notes_since (b := b.visit p t) hstage hnotes
    have hids : ∀ id ∈ ids, b.arena.size ≤ id.index :=
      fun id hid => Nat.le_trans hopened.size_le (hle id hid)
    exact (hopened.trans_next ih).closeRecord (Progress.stage_eq_absent_iff.mp hstage).2
      (Nat.le_refl _) hids
  -- the record stays open, so there is nothing to close
  | @expansionFailed room p t b e b' hrecord hstage hfields ih =>
    have hopened : b.Extends S.options.refPrefix none ((b.visit p t).openRecord S.catalog t) :=
      .visit_openRecord S.catalog p t
    exact hopened.trans_next ih
  -- the property is given to the object of the record, between its field and the others
  | @nextField room p object f fs b child b' r hfield hrest ih ihrest =>
    have hset : b.Extends S.options.refPrefix (some object)
        (b'.setProperty object f.name child) := ih.weaken.trans (.setProperty _ _ _)
    exact hset.trans ihrest
  | fieldsFailed _ ih => exact ih.weaken

/-- A run that ends well leaves no type unfinished that it started. -/
theorem Runs.expandingTypes_eq (h : Runs S task b r) {id : NodeId} (hok : r.1 = .ok id) :
    r.2.progress.expandingTypes = b.progress.expandingTypes := by
  induction h generalizing id with
  | tooDeep | fieldFailed | elementsFailed | expansionFailed | fieldsFailed => exact nomatch hok
  | scalar | enumeration | unknownElements | known | noFields => rfl
  | fieldPlain _ _ ih | elements _ _ ih => exact ih rfl
  | fieldRecord _ _ ih => rw [Build.progress_refer, ih rfl]
  | deferred => exact Progress.expandingTypes_noted
  -- the fields leave the list as it was when the record was opened
  | @expanded room p t b b' notes hrecord hstage hfields hnotes ih =>
    have habsent : t ∉ b.progress.expandingTypes := by
      rw [← Progress.isSome_notes?_iff, (Progress.stage_eq_absent_iff.mp hstage).2]
      exact fun h => nomatch h
    have hnot : ∀ u ∈ b.progress.expandingTypes, u ≠ t := fun u hu he => habsent (he ▸ hu)
    -- the record is put at the end of the list when it is opened, and is the one that is taken out
    show (b'.progress.finished t b.arena.next).expandingTypes = _
    rw [Progress.expandingTypes_finished, ih rfl]
    show ((b.progress.started t).expandingTypes).filter (· ≠ t) = _
    rw [Progress.expandingTypes_started, List.filter_append]
    simpa using hnot
  | nextField _ _ ih ihrest => rw [ihrest hok, ← ih rfl]; rfl

end Walk

end Schemata
