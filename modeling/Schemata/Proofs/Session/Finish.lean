import Schemata.Proofs.Document
import Schemata.Proofs.Session.Roots

/-!
# Finishing a session

A session finishes exactly when no fix-up is queued.  Since the queued fix-ups are those that the
placeholders wait for, that is when its arena holds no reference without a target.  In the document
of a session that finishes, every node resolves, and it resolves to a node that is no reference.

## Key results

- `finish_eq_ok_iff` / `finish_eq_error_iff`: how a session ends
- `component?_of_completed`: completed types are found under their names
- `references_are_paired_and_resolve`: no reference is left dangling
-/

namespace Schemata

namespace Session

/-- The document of a session as it stands. -/
def document (s : Session) : Document where
  arena := s.build.arena
  roots := s.roots
  components := s.build.progress.completed.map s.componentOf
  completed := s.build.progress.completed
  refPrefix := s.compiler.options.refPrefix

variable {s : Session} {done : List TypeId} {t : TypeId} {id : NodeId} {name : String}

/-- A session that ends well ends with its document, and no fix-up is queued. -/
theorem finish_eq_ok_iff {doc : Document} :
    s.finish = .ok doc ↔ s.build.progress.queued = [] ∧ doc = s.document := by
  -- the session asks for the first pending type, and a document is made if there is none
  rw [finish, ← Progress.firstPending?_eq_none_iff]
  cases s.build.progress.firstPending? with
  | none => exact ⟨fun h => ⟨rfl, (Except.ok.inj h).symm⟩, fun h => by rw [h.2]; rfl⟩
  | some u => exact ⟨fun h => (nomatch h), fun h => (nomatch h.1)⟩

/-- A session that ends with an error names the least type for which a fix-up is queued. -/
theorem finish_eq_error_iff {e : CompileError} :
    s.finish = .error e ↔ ∃ t, (∃ f, (t, f) ∈ s.build.progress.queued) ∧
      (∀ q ∈ s.build.progress.queued, t.index ≤ q.1.index) ∧
      e = .unresolved (s.catalog.name t) := by
  simp only [← and_assoc, ← Progress.firstPending?_eq_some_iff]
  rw [finish]
  cases s.build.progress.firstPending? with
  -- without a pending type there is no error, and no such type either
  | none => exact ⟨fun h => (nomatch h), fun ⟨_, h, _⟩ => (nomatch h)⟩
  | some u =>
    constructor
    · intro h
      exact ⟨u, rfl, (Except.error.inj h).symm⟩
    · rintro ⟨v, hv, rfl⟩
      rw [Option.some.inj hv]

/-! ## Components -/

/-- A completed type is a component under its name. -/
theorem componentOf_of_body (hbody : s.build.arena.body? id = some (.object name)) :
    s.componentOf (t, id) = (name, id) := by
  obtain ⟨n, hn, he⟩ := Arena.exists_get?_of_body? hbody
  simp only [componentOf, hn, Option.bind_some, Node.name?, he, Option.getD_some]

theorem components_eq (s : Session) :
    s.document.components.map (·.2) = s.document.completed.map (·.2) := by
  simp only [document, List.map_map]
  rfl

/-- No two components have the same name. -/
theorem Sound.components_nodup (h : s.Sound done) :
    (s.document.components.map (·.1)).Nodup := by
  -- two components with one name are objects with one name, and these belong to one type
  have hrecorded := h.build.recorded
  have hnodup : s.build.progress.completed.Nodup := hrecorded.completedTypes_nodup.of_map
  simp only [document, List.map_map]
  refine hnodup.map_on ?_
  rintro ⟨t, id⟩ ht ⟨u, id'⟩ hu heq
  obtain ⟨name, _, hbody⟩ := hrecorded.node ht
  obtain ⟨name', _, hbody'⟩ := hrecorded.node hu
  simp only [Function.comp_apply, componentOf_of_body hbody, componentOf_of_body hbody'] at heq
  subst heq
  exact hrecorded.eq_of_object ht hu hbody hbody'

/-- A completed type is found under the name of its object. -/
theorem Sound.component?_of_completed (h : s.Sound done)
    (ht : (t, id) ∈ s.build.progress.completed)
    (hbody : s.build.arena.body? id = some (.object name)) :
    s.document.component? name = some id := by
  refine valueOf?_of_mem h.components_nodup (List.mem_map.mpr ⟨(t, id), ht, ?_⟩)
  exact componentOf_of_body hbody

/-! ## References -/

/-- The queued fix-ups are those that fill the placeholders, one for each. -/
private theorem Sound.queued_perm (h : s.Sound done) :
    (s.build.progress.queued.map (·.2)).Perm
      (s.build.arena.unresolved.map (.naming s.compiler.options.refPrefix)) := by
  have hwaiting := h.build.waiting
  -- neither list has an entry twice, so it is enough that they have the same entries
  have hleft : (s.build.progress.queued.map (·.2)).Nodup := by
    refine List.Nodup.of_map Fixup.node ?_
    rw [List.map_map]
    exact hwaiting.nodup
  have hright : (s.build.arena.unresolved.map
      (Fixup.naming s.compiler.options.refPrefix)).Nodup :=
    s.build.arena.nodup_unresolved.map fun _ _ he =>
      Option.some.inj (congrArg Fixup.node he)
  rw [List.perm_ext_iff_of_nodup hleft hright]
  intro f
  constructor
  -- a queued fix-up names a placeholder
  · intro hf
    obtain ⟨⟨t, f⟩, hq, rfl⟩ := List.mem_map.mp hf
    obtain ⟨id, rfl, hbody⟩ := hwaiting.placeholder hq
    exact List.mem_map.mpr ⟨id, Arena.mem_unresolved_iff.mpr hbody, rfl⟩
  -- and each placeholder has its fix-up in the queue
  · intro hf
    obtain ⟨id, hid, rfl⟩ := List.mem_map.mp hf
    obtain ⟨t, ht⟩ := hwaiting.queued (Arena.mem_unresolved_iff.mp hid)
    exact List.mem_map.mpr ⟨(t, _), ht, rfl⟩

/-- No fix-up is queued exactly if no reference lacks its target. -/
theorem Sound.queued_eq_nil_iff (h : s.Sound done) :
    s.build.progress.queued = [] ↔ s.build.arena.unresolved = [] := by
  have hlength := h.queued_perm.length_eq
  rw [List.length_map, List.length_map] at hlength
  rw [← List.length_eq_zero_iff, hlength, List.length_eq_zero_iff]

/-- If no fix-up is queued, every node resolves to one that is no reference and resolves to
itself. -/
private theorem Sound.exists_resolve (h : s.Sound done) (hqueued : s.build.progress.queued = [])
    (hid : id ∈ s.build.arena.ids) :
    ∃ j node, s.document.resolve id = some j ∧ s.document.arena.get? j = some node ∧
      node.isReference = false ∧ s.document.resolve j = some j := by
  -- what is no reference resolves to itself
  have hself : ∀ {j node}, s.build.arena.get? j = some node → node.isReference = false →
      s.document.resolve j = some j := by
    intro j node hj hplain
    refine s.document.resolve_of_body (Arena.body?_of_get? hj) ?_
    intro target htarget
    simp only [Node.isReference, htarget] at hplain
    cases hplain
  obtain ⟨node, hnode⟩ := Arena.exists_get?_of_lt (Arena.mem_ids_iff.mp hid)
  have hbody := Arena.body?_of_get? hnode
  cases hcase : node.body with
  -- only a reference is more than itself
  | object name | array items | scalar type format | enumeration name values =>
    have hplain : node.isReference = false := by simp only [Node.isReference, hcase]
    exact ⟨id, node, hself hnode hplain, hnode, hplain, hself hnode hplain⟩
  | reference target =>
    rw [hcase] at hbody
    cases target with
    -- a placeholder would have a fix-up queued for it
    | none =>
      obtain ⟨u, hu⟩ := h.build.waiting.queued hbody
      rw [hqueued] at hu
      cases hu
    | some target =>
      -- the target names a component, and that is an object
      obtain ⟨t, object, name, hmem, hobject, rfl⟩ := h.build.waiting.resolved hbody
      obtain ⟨n, hn, he⟩ := Arena.exists_get?_of_body? hobject
      have hplain : n.isReference = false := by simp only [Node.isReference, he]
      refine ⟨object, n, ?_, hn, hplain, hself hn hplain⟩
      have hresolve := s.document.resolve_of_target hbody
      rw [hresolve]
      exact h.component?_of_completed hmem hobject

/-- After any roots, also such as fail, the queued fix-ups are those that fill the references
without a target, one for each, and every other reference is to the object of a completed type.  So
the session ends with an error exactly if some reference lacks its target, and in its document
every node resolves to one that is no reference. -/
theorem references_are_paired_and_resolve (policy : FieldPolicy) (options : Options) (c : Catalog)
    (ts : List TypeId) :
    let s := (({ policy, options } : Compiler).session c).after ts
    (s.build.progress.queued.map (·.2)).Perm
      (s.build.arena.unresolved.map (.naming options.refPrefix)) ∧
    (∀ id target, s.build.arena.body? id = some (.reference (some target)) →
      ∃ t object name, s.build.progress.node? t = some object ∧
        s.build.arena.body? object = some (.object name) ∧ target = options.refPrefix ++ name) ∧
    ((∃ e, s.finish = .error e) ↔ s.build.arena.unresolved ≠ []) ∧
    (∀ e, s.finish = .error e ↔ ∃ t, (∃ f, (t, f) ∈ s.build.progress.queued) ∧
      (∀ q ∈ s.build.progress.queued, t.index ≤ q.1.index) ∧ e = .unresolved (c.name t)) ∧
    ∀ doc, s.finish = .ok doc → doc.arena = s.build.arena ∧
      ∀ id ∈ doc.arena.ids, ∃ j node, doc.resolve id = some j ∧ doc.arena.get? j = some node ∧
        node.isReference = false ∧ doc.resolve j = some j := by
  intro s
  have hs := (sound_session policy options c).after ts
  obtain ⟨hcatalog, hcompiler⟩ := after_setting (({ policy, options } : Compiler).session c) ts
  have hprefix : s.compiler.options.refPrefix = options.refPrefix := by rw [hcompiler]; rfl
  -- the statement's parts in order: pairing, targets, failure, the error, the document
  refine ⟨?_, fun id target hid => ?_, ?_, fun e => ?_, fun doc hdoc => ?_⟩
  · rw [← hprefix]
    exact hs.queued_perm
  · obtain ⟨t, object, name, hmem, hbody, htarget⟩ := hs.build.waiting.resolved hid
    exact ⟨t, object, name, hs.build.recorded.node?_of_mem hmem, hbody, hprefix ▸ htarget⟩
  -- placeholders and queued fix-ups are paired, so there are both or neither
  · rw [Ne, ← hs.queued_eq_nil_iff]
    constructor
    · rintro ⟨e, he⟩ hnil
      obtain ⟨t, ⟨f, hf⟩, _⟩ := finish_eq_error_iff.mp he
      rw [hnil] at hf
      cases hf
    · intro hne
      cases hfinish : s.finish with
      | error e => exact ⟨e, rfl⟩
      | ok doc => exact absurd (finish_eq_ok_iff.mp hfinish).1 hne
  · rw [finish_eq_error_iff, hcatalog]
    rfl
  · obtain ⟨hnil, rfl⟩ := finish_eq_ok_iff.mp hdoc
    exact ⟨rfl, fun id hid => hs.exists_resolve hnil hid⟩

/-! ## A catalog with a cycle -/

/-- A record with a field of its own type, and one with a collection. -/
def cyclicDecls : List TypeDecl :=
  [((TypeDecl.record "Person").withMember
      { name := "friend", type := "Person", visibility := .everyone }).withMember
      { name := "names", type := "Names", visibility := .everyone },
    .collection "Names" (some "string")]

/-- The catalog of these declarations. -/
def cyclicCatalog : Catalog where
  types := (Catalog.builtins ++ cyclicTypes).toArray
where
  cyclicTypes : List TypeDef :=
    [{ name := "Person", simpleName := "Person", shape := .record,
       members := [{ name := "friend", type := ⟨12⟩, visibility := .everyone },
         { name := "names", type := ⟨13⟩, visibility := .everyone }] },
     { name := "Names", simpleName := "Names", shape := .collection (some ⟨9⟩) }]

theorem ofDecls_cyclicDecls : Catalog.ofDecls cyclicDecls = .ok cyclicCatalog := by rfl

/-- A session on that catalog, after some roots. -/
abbrev cyclicSession (options : Options) (ts : List TypeId) : Session :=
  (({ options } : Compiler).session cyclicCatalog).after ts

/-- If the record is cut off by the limit, its reference to itself is left without a target and the
session ends with an error; else the reference resolves to the object of the record. -/
theorem references_are_paired_and_resolve_cyclic :
    (cyclicSession { maxDepth := 1 } [⟨12⟩]).finish = .error (.unresolved "Person") ∧
    (∃ t object name, (cyclicSession {} [⟨12⟩]).build.progress.node? t = some object ∧
      (cyclicSession {} [⟨12⟩]).build.arena.body? object = some (.object name) ∧
      "#/components/schemas/Person" = "#/components/schemas/" ++ name) ∧
    ∃ j node, (cyclicSession {} [⟨12⟩]).document.resolve ⟨1⟩ = some j ∧
      (cyclicSession {} [⟨12⟩]).document.arena.get? j = some node ∧
      node.isReference = false ∧ (cyclicSession {} [⟨12⟩]).document.resolve j = some j := by
  -- unfolded, the sessions are those of the theorem as they stand, and are not run to compare them
  unfold cyclicSession
  obtain ⟨_, _, _, herror, _⟩ :=
    references_are_paired_and_resolve .accessible { maxDepth := 1 } cyclicCatalog [⟨12⟩]
  obtain ⟨_, hresolved, _, _, hok⟩ :=
    references_are_paired_and_resolve .accessible {} cyclicCatalog [⟨12⟩]
  have htarget := hresolved ⟨1⟩ "#/components/schemas/Person" (by decide +kernel)
  have hqueued : ((({} : Compiler).session cyclicCatalog).after [⟨12⟩]).build.progress.queued =
      [] := by decide +kernel
  have hresolve := (hok _ (finish_eq_ok_iff.mpr ⟨hqueued, rfl⟩)).2 ⟨1⟩ (by decide +kernel)
  refine ⟨(herror _).mpr ⟨⟨12⟩, ⟨.naming "#/components/schemas/" ⟨1⟩, ?_⟩, ?_, ?_⟩,
    htarget, hresolve⟩ <;>
  decide +kernel

end Session

end Schemata
