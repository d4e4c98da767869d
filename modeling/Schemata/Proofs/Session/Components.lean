import Schemata.Proofs.Session.Finish

/-!
# Components are the reachable records

The field policy is asked about a type when its expansion begins, and no type is expanded twice, not
even after roots that failed.  If no root fails, the types that it was asked about are the records
that the roots lead to, and the components of the document are theirs: one object each, under one
name, and no other object.

## Key results

- `compileMany_eq_ok`: what is left by roots that all come to a node
- `mem_listed_iff`: the policy was asked about the reachable records
- `records_are_expanded_once`: expansions, components, objects and reachable records correspond
-/

namespace Schemata

/-- A document is about given records: each of them has one object and one component, and there are
no others. -/
structure Document.Lists (doc : Document) (records : List TypeId) : Prop where
  types : (doc.completed.map (·.1)).Perm records
  objects : (doc.completed.map (·.2)).Perm doc.arena.objects
  components : doc.components.map (·.2) = doc.completed.map (·.2)
  names : (doc.components.map (·.1)).Nodup
  found : ∀ t ∈ records, ∃ id name, doc.nodeFor? t = some id ∧
    doc.arena.body? id = some (.object name) ∧ doc.component? name = some id
  missing : ∀ t, t ∉ records → doc.nodeFor? t = none

namespace Session

variable {s : Session} {done ts : List TypeId} {t : TypeId}

/-- No type is expanded twice. -/
private theorem Sound.listed_nodup (h : s.Sound done) : s.build.listed.Nodup := by
  rw [h.build.recorded.listed]
  -- the log has the types in the order in which they were named, and nobody is named twice
  exact h.build.recorded.types_nodup

/-- If no type is left unfinished, the policy was asked about the completed types. -/
theorem Sound.completedTypes_perm (h : s.Sound done)
    (hnone : s.build.progress.expandingTypes = []) :
    s.build.progress.completedTypes.Perm s.build.listed := by
  have htypes := h.build.recorded.types
  -- named types are completed or unfinished, and the latter there are none
  rw [hnone, List.append_nil] at htypes
  rw [h.build.recorded.listed]
  exact htypes

/-- Different types have different nodes. -/
theorem Sound.nodes_nodup (h : s.Sound done) :
    (s.build.progress.completed.map (·.2)).Nodup := by
  have hrecorded := h.build.recorded
  have hnodup : s.build.progress.completed.Nodup := hrecorded.completedTypes_nodup.of_map
  -- two types with one node would share its object, and with that their name
  refine hnodup.map_on ?_
  rintro ⟨t, id⟩ ht ⟨u, id'⟩ hu heq
  obtain rfl : id = id' := heq
  obtain ⟨name, _, hbody⟩ := hrecorded.node ht
  exact hrecorded.eq_of_object ht hu hbody hbody

/-- If no type is left unfinished, every object is the node of a completed type. -/
theorem Sound.nodes_perm (h : s.Sound done) (hnone : s.build.progress.expandingTypes = []) :
    (s.build.progress.completed.map (·.2)).Perm s.build.arena.objects := by
  have hrecorded := h.build.recorded
  rw [List.perm_ext_iff_of_nodup h.nodes_nodup s.build.arena.nodup_objects]
  intro id
  constructor
  · intro hid
    obtain ⟨⟨t, id⟩, ht, rfl⟩ := List.mem_map.mp hid
    obtain ⟨name, _, hbody⟩ := hrecorded.node ht
    exact Arena.mem_objects_iff.mpr ⟨name, hbody⟩
  · intro hid
    obtain ⟨name, hbody⟩ := Arena.mem_objects_iff.mp hid
    -- the name was given to a type, and the node of that type is the only object with it
    obtain ⟨t, ht, hname⟩ := NameTable.exists_name?_of_mem_names hrecorded.types_nodup
      (hrecorded.object_name hbody)
    have hcompleted : t ∈ s.build.progress.completedTypes := by
      have hmem := hrecorded.types.mem_iff.mpr ht
      -- every named type is completed, as none is left unfinished
      rwa [hnone, List.append_nil] at hmem
    obtain ⟨⟨u, id'⟩, hu, rfl⟩ := List.mem_map.mp hcompleted
    obtain ⟨name', hname', hbody'⟩ := hrecorded.node hu
    rw [hname, Option.some.injEq] at hname'
    subst hname'
    rw [hrecorded.object_inj hbody hbody']
    exact List.mem_map.mpr ⟨_, hu, rfl⟩

/-- If no type is left unfinished, the document is about the types that the policy was asked
about. -/
private theorem Sound.lists (h : s.Sound done) (hnone : s.build.progress.expandingTypes = []) :
    s.document.Lists s.build.listed where
  types := h.completedTypes_perm hnone
  objects := h.nodes_perm hnone
  components := components_eq s
  names := h.components_nodup
  found t ht := by
    have hcompleted := (h.completedTypes_perm hnone).mem_iff.mpr ht
    obtain ⟨⟨t, id⟩, hmem, rfl⟩ := List.mem_map.mp hcompleted
    obtain ⟨name, _, hbody⟩ := h.build.recorded.node hmem
    exact ⟨id, name, h.build.recorded.node?_of_mem hmem, hbody,
      h.component?_of_completed hmem hbody⟩
  missing t ht := by
    rw [← (h.completedTypes_perm hnone).mem_iff] at ht
    exact valueOf?_eq_none_iff.mpr ht

/-! ## Reachable records -/

/-- If no type is left unfinished, the roots are covered. -/
private theorem Sound.covers (h : s.Sound done) (hnone : s.build.progress.expandingTypes = [])
    (ht : t ∈ done) : Walk.Covers s.setting s.build t := by
  obtain ⟨id, _, hid⟩ := exists_of_forall₂_left h.roots ht
  cases hrecord : s.setting.catalog.isRecord t with
  | false => exact .inr ⟨id, hid.plain hrecord⟩
  -- a root that is a record is covered by its object, anything else by its node
  | true =>
    rcases hid.record hrecord with hobject | ⟨notes, hnotes, _⟩
    · exact .inl (List.mem_map.mpr ⟨_, hobject, rfl⟩)
    -- a root that waits would have its type left unfinished
    · have hmem := Progress.mem_expandingTypes_of_notes hnotes
      rw [hnone] at hmem
      cases hmem

/-- If all roots come to a node, the policy was asked about the records that they lead to. -/
theorem mem_listed_iff {policy : FieldPolicy} {options : Options} {c : Catalog} (hc : c.Closed)
    (hpolicy : policy.Closed c)
    (hroots : (Compiler.compileRoots (({ policy, options } : Compiler).session c) ts).1 = .ok ()) :
    t ∈ ((({ policy, options } : Compiler).session c).after ts).build.listed ↔
      c.shape? t = some .record ∧ ∃ root ∈ ts, policy.Reaches c root t := by
  have hs := (sound_session policy options c).after ts
  have hstrategies := (sound_session policy options c).strategies
  obtain ⟨_, hsucceeded, _, hexpanding⟩ := compileRoots_ok hstrategies hroots
  have hnone : ((({ policy, options } : Compiler).session c).after ts).build.progress.expandingTypes
      = [] := hexpanding
  have hsetting := setting_after (({ policy, options } : Compiler).session c) ts
  have hbuild := hs.build
  have hdescribed := hs.described
  rw [hsetting] at hbuild hdescribed
  constructor
  · -- names are given to records only, and only to such as a root leads to
    intro hmem
    rw [hbuild.recorded.listed] at hmem
    have hrecord := hbuild.recorded.record t hmem
    rcases names_reached hstrategies hc hpolicy hmem with hold | ⟨root, hroot, hhas, hreach⟩
    · cases hold
    · have ht := hreach.has hc hpolicy hhas
      exact ⟨Catalog.shape?_of_isRecord ht hrecord, root, hroot, hreach⟩
  · -- all roots are covered, and with them all types that they lead to
    rintro ⟨hshape, root, hroot, hreach⟩
    rw [List.nil_append, hsucceeded] at hs
    have hcovers := hs.covers hnone hroot
    rw [hsetting] at hcovers
    have hcovered := hcovers.of_reaches hbuild hdescribed hnone hreach
    exact (hs.completedTypes_perm hnone).mem_iff.mp (hcovered.mem_completedTypes hnone hshape)

/-- A compilation that ends well leaves the session after all its roots, and its document. -/
theorem compileMany_eq_ok {compiler : Compiler} {c : Catalog} {doc : Document}
    (hs : compiler.strategies = Strategy.standard) (h : compiler.compileMany c ts = .ok doc) :
    (Compiler.compileRoots (compiler.session c) ts).1 = .ok () ∧
      (compiler.compileLogged c ts).2 = ((compiler.session c).after ts).build ∧
      doc = ((compiler.session c).after ts).document := by
  rw [Compiler.compileMany, Compiler.compileLogged] at h
  rw [Compiler.compileLogged]
  rcases hr : Compiler.compileRoots (compiler.session c) ts with ⟨e | u, s⟩
  · rw [hr] at h
    cases h
  · rw [hr] at h
    have hroots : (Compiler.compileRoots (compiler.session c) ts).1 = .ok () := by rw [hr]
    have heq := (compileRoots_ok hs hroots).1
    rw [hr] at heq
    obtain rfl : s = _ := heq
    -- both sides are the session after all roots, by the lemma about roots that do not fail
    exact ⟨rfl, rfl, (finish_eq_ok_iff.mp h).2⟩

/-- In every session, and in every compilation, the policy is asked about each type at most once.
If a compilation ends well, it was asked about the records that the roots lead to, each once, and
the document is about these. -/
theorem records_are_expanded_once (policy : FieldPolicy) (options : Options) (c : Catalog) :
    let compiler : Compiler := { policy, options }
    (∀ ts, ((compiler.session c).after ts).build.listed.Nodup) ∧
    (∀ ts, (compiler.compileLogged c ts).2.listed.Nodup) ∧
    ∀ decls, Catalog.ofDecls decls = .ok c → policy.Closed c →
      ∀ ts doc, compiler.compileMany c ts = .ok doc →
        (∀ t, t ∈ (compiler.compileLogged c ts).2.listed ↔
          c.shape? t = some .record ∧ ∃ root ∈ ts, policy.Reaches c root t) ∧
        doc.Lists (compiler.compileLogged c ts).2.listed := by
  intro compiler
  have hsound := fun ts => (sound_session policy options c).after ts
  refine ⟨fun ts => (hsound ts).listed_nodup, fun ts => ?_, ?_⟩
  -- also a compilation that fails is a session, after the roots up to the one that failed
  · obtain ⟨front, _, heq⟩ := compileRoots_eq (compiler.session c) ts
    show (Compiler.compileRoots (compiler.session c) ts).2.build.listed.Nodup
    rw [heq]
    exact (hsound front).listed_nodup
  · intro decls hdecls hpolicy ts doc hdoc
    obtain ⟨hroots, hbuild, rfl⟩ := compileMany_eq_ok rfl hdoc
    obtain ⟨_, _, _, hexpanding⟩ := compileRoots_ok rfl hroots
    rw [hbuild]
    refine ⟨fun t => ?_, (hsound ts).lists hexpanding⟩
    exact mem_listed_iff (Catalog.closed_of_ofDecls hdecls) hpolicy hroots

/-- A record with a field of its own type is expanded once and has one component, also if it is
compiled twice. -/
theorem records_are_expanded_once_cyclic :
    Catalog.ofDecls cyclicDecls = .ok cyclicCatalog ∧
    FieldPolicy.accessible.Closed cyclicCatalog ∧
    ({} : Compiler).compileMany cyclicCatalog [⟨12⟩, ⟨12⟩] =
      .ok (cyclicSession {} [⟨12⟩, ⟨12⟩]).document ∧
    (∀ t, t ∈ [⟨12⟩] ↔ cyclicCatalog.shape? t = some .record ∧
      ∃ root ∈ [⟨12⟩, ⟨12⟩], FieldPolicy.accessible.Reaches cyclicCatalog root t) ∧
    (cyclicSession {} [⟨12⟩, ⟨12⟩]).document.Lists [⟨12⟩] := by
  have hdecls := ofDecls_cyclicDecls
  have hpolicy : FieldPolicy.accessible.Closed cyclicCatalog :=
    FieldPolicy.accessible_closed (Catalog.closed_of_ofDecls hdecls)
  have hmany : ({} : Compiler).compileMany cyclicCatalog [⟨12⟩, ⟨12⟩] =
      .ok (cyclicSession {} [⟨12⟩, ⟨12⟩]).document := by decide +kernel
  have hlisted : (({} : Compiler).compileLogged cyclicCatalog [⟨12⟩, ⟨12⟩]).2.listed = [⟨12⟩] := by
    -- the log is found by evaluation, the rest is the theorem
    decide +kernel
  obtain ⟨_, _, hok⟩ := records_are_expanded_once .accessible {} cyclicCatalog
  obtain ⟨hreach, hlists⟩ := hok cyclicDecls hdecls hpolicy _ _ hmany
  rw [hlisted] at hreach hlists
  exact ⟨hdecls, hpolicy, hmany, hreach, hlists⟩

end Session

end Schemata
