import Schemata.Proofs.Forest
import Schemata.Proofs.Search
import Schemata.Proofs.Session.Faithful
import Schemata.Proofs.Session.Grows

/-!
# Roots that come to unfinished records

A root that fails leaves the records on its way unfinished, and no later root completes them.  What
refers to such a record is a placeholder that is never filled.  So a later root may come to a node
from which a reference without a target is met, and the session cannot end well any more.  That is
so exactly if the root, or if it is a record one of its fields, is of an unfinished record, with all
arrays and collections looked through.

## Key results

- `Build.Sound.unresolvedBelow_iff_of_represents`: what a node stands for decides
- `Sound.unresolvedBelow_iff`: so does the root that a node stands for
- `compileRoot_unresolvedBelow_iff`: the node of a root after other roots, also such as failed
-/

namespace Schemata

/-! ## References without a target -/

namespace Arena

/-- A reference without a target is met from a node, by way of properties and items. -/
def UnresolvedBelow (a : Arena) (id : NodeId) : Prop :=
  ∃ i, Relation.ReflTransGen a.IsChild i id ∧ a.body? i = some (.reference none)

variable {a : Arena} {id : NodeId} {n : Node}

/-- It is the node itself, or it is met from a child. -/
private theorem unresolvedBelow_iff : a.UnresolvedBelow id ↔
    a.body? id = some (.reference none) ∨ ∃ child ∈ a.childrenOf id, a.UnresolvedBelow child := by
  constructor
  -- by the last step down to the node, or none
  · rintro ⟨i, hi, hbody⟩
    rcases hi.cases_tail with rfl | ⟨child, hbelow, hchild⟩
    · exact .inl hbody
    · exact .inr ⟨child, hchild, i, hbelow, hbody⟩
  · rintro (hbody | ⟨child, hchild, i, hi, hbody⟩)
    · exact ⟨id, .refl, hbody⟩
    · exact ⟨i, hi.tail hchild, hbody⟩

/-- From a node that has a target or needs none, it is met by way of a child. -/
private theorem unresolvedBelow_iff_of_get? (hn : a.get? id = some n)
    (hbody : n.body ≠ .reference none) :
    a.UnresolvedBelow id ↔ ∃ child ∈ n.children, a.UnresolvedBelow child := by
  have hnot : a.body? id ≠ some (.reference none) := by
    rw [body?_of_get? hn]
    exact fun h => hbody (Option.some.inj h)
  rw [unresolvedBelow_iff, childrenOf_of_get? hn]
  exact or_iff_right hnot

/-- It is not met from a node without children that has a target or needs none. -/
private theorem not_unresolvedBelow (hn : a.get? id = some n) (hchildren : n.children = [])
    (hbody : n.body ≠ .reference none) : ¬ a.UnresolvedBelow id := by
  rw [unresolvedBelow_iff_of_get? hn hbody, hchildren]
  rintro ⟨_, hchild, _⟩
  cases hchild

end Arena

namespace Build

variable {S : Setting} {b : Build} {t : TypeId} {id object : NodeId}

/-- Types that are being expanded are records. -/
private theorem Recorded.isRecord_of_expanding {c : Catalog} (h : b.Recorded c)
    (ht : t ∈ b.progress.expandingTypes) : c.isRecord t = true :=
  h.record t (h.types.mem_iff.mp (List.mem_append_right _ ht))

/-- What is waited for is being expanded. -/
private theorem Awaits.mem_expandingTypes {refPrefix : String} (h : b.Awaits refPrefix t id) :
    t ∈ b.progress.expandingTypes := by
  obtain ⟨notes, hnotes, _⟩ := h
  exact Progress.mem_expandingTypes_of_notes hnotes

namespace Sound

/-- What refers to a record lacks its target while the record is being expanded. -/
private theorem unresolvedBelow_iff_of_refers (h : b.Sound S)
    (hid : b.Refers S.options.refPrefix t id) :
    b.arena.UnresolvedBelow id ↔ t ∈ b.progress.expandingTypes := by
  -- it waits, or it has the name of a completed record, which is not being expanded
  rcases hid with hawaits | ⟨object, name, hobject, _, hnode⟩
  · exact iff_of_true (Arena.unresolvedBelow_iff.mpr (.inl (h.body?_of_awaits hawaits)))
      hawaits.mem_expandingTypes
  · refine iff_of_false (Arena.not_unresolvedBelow hnode rfl (by rintro ⟨⟩)) fun ht => ?_
    exact h.recorded.consistent.not_both ⟨List.mem_map.mpr ⟨_, hobject, rfl⟩, ht⟩

/-- From the node of a field, a reference without a target is met if the type of the field is an
unfinished record, inside any arrays and collections. -/
theorem unresolvedBelow_iff_of_represents (h : b.Sound S) (hc : S.catalog.Closed)
    (hid : b.Represents S t id) :
    b.arena.UnresolvedBelow id ↔ S.catalog.innermost t ∈ b.progress.expandingTypes := by
  -- a type that is no record is not being expanded
  have hplain : ∀ {t}, S.catalog.isRecord t = false → t ∉ b.progress.expandingTypes := by
    intro t ht hmem
    rw [h.recorded.isRecord_of_expanding hmem] at ht
    cases ht
  -- on what the node stands for, down to the type inside all containers
  induction hid with
  -- nothing is inside of these, and they are no records
  | scalar hshape hnode | enumeration hshape hnode | unknownElements hshape hnode =>
    rw [Catalog.innermost_of_none (Catalog.element?_eq_of_shape? hshape)]
    refine iff_of_false (Arena.not_unresolvedBelow hnode rfl (by rintro ⟨⟩)) (hplain ?_)
    simp only [Catalog.isRecord, hshape]
  | @elements t id e items helement hnode _ ih =>
    -- an array has no other child than its items
    have hitems : b.arena.UnresolvedBelow id ↔ b.arena.UnresolvedBelow items := by
      rw [Arena.unresolvedBelow_iff_of_get? hnode (by rintro ⟨⟩),
        show (Node.array (some items)).children = [items] from rfl]
      simp only [List.mem_singleton, exists_eq_left]
    rw [hc.innermost_of_some helement]
    exact hitems.trans ih
  | record hrecord hheld =>
    rw [Catalog.innermost_of_none (Catalog.element?_of_isRecord hrecord)]
    exact h.unresolvedBelow_iff_of_refers hheld

/-- From the object of a completed record, a reference without a target is met by way of a field. -/
private theorem unresolvedBelow_iff_of_describes (h : b.Sound S) (hc : S.catalog.Closed)
    (hnodup : ((S.policy S.catalog t).map (·.name)).Nodup) (hobject : b.Describes S t object) :
    b.arena.UnresolvedBelow object ↔
      ∃ f ∈ S.policy S.catalog t, S.catalog.innermost f.type ∈ b.progress.expandingTypes := by
  obtain ⟨name, children, hnode, hchildren⟩ := hobject
  -- an object owns the nodes of its fields, and nothing else
  have howned : (⟨.object name, writeFields .empty (S.policy S.catalog t) children⟩ :
      Node).children = children := by
    rw [Node.children, entries_writeFields hnodup hchildren.length_eq, List.map_snd_zip]
    · exact List.append_nil _
    · rw [List.length_map, hchildren.length_eq]
  rw [Arena.unresolvedBelow_iff_of_get? hnode (by rintro ⟨⟩), howned]
  -- children and fields are paired one by one, so each way leads from one to the other
  constructor
  · rintro ⟨child, hchild, hbelow⟩
    obtain ⟨f, hf, hid⟩ := exists_of_forall₂_right hchildren hchild
    exact ⟨f, hf, (h.unresolvedBelow_iff_of_represents hc hid).mp hbelow⟩
  · rintro ⟨f, hf, ht⟩
    obtain ⟨child, hchild, hid⟩ := exists_of_forall₂_left hchildren hf
    exact ⟨child, hchild, (h.unresolvedBelow_iff_of_represents hc hid).mpr ht⟩

end Sound

end Build

/-! ## Roots -/

/-- The type inside a root, with all arrays and collections looked through, and if the root is a
record the types inside its fields. -/
def FieldPolicy.inside (policy : FieldPolicy) (c : Catalog) (t : TypeId) : List TypeId :=
  c.innermost t :: if c.isRecord t then (policy c t).map fun f => c.innermost f.type else []

namespace Session

variable {s s' : Session} {done : List TypeId} {t : TypeId} {id : NodeId}

/-- From the node of a root, a reference without a target is met if a type inside the root is
unfinished. -/
theorem Sound.unresolvedBelow_iff (h : s.Sound done) (hc : s.catalog.Closed)
    (hnodup : ((s.compiler.policy s.catalog t).map (·.name)).Nodup)
    (hid : s.build.HoldsRoot s.setting t id) :
    s.build.arena.UnresolvedBelow id ↔
      ∃ u ∈ s.compiler.policy.inside s.catalog t, u ∈ s.build.progress.expandingTypes := by
  rw [FieldPolicy.inside]
  cases hrecord : s.catalog.isRecord t with
  | false =>
    rw [h.build.unresolvedBelow_iff_of_represents hc (hid.plain hrecord)]
    simp [setting]
  | true =>
    rw [Catalog.innermost_of_none (Catalog.element?_of_isRecord hrecord)]
    -- the record's own object, or the placeholder of a record that was left unfinished
    rcases hid.record hrecord with hcompleted | hawaits
    · have hnot : t ∉ s.build.progress.expandingTypes := fun ht =>
        h.build.recorded.consistent.not_both ⟨List.mem_map.mpr ⟨_, hcompleted, rfl⟩, ht⟩
      rw [h.build.unresolvedBelow_iff_of_describes hc hnodup (h.described t id hcompleted)]
      simp [setting, hnot]
    · refine iff_of_true ?_ ⟨t, List.mem_cons_self, hawaits.mem_expandingTypes⟩
      exact Arena.unresolvedBelow_iff.mpr (.inl (h.build.body?_of_awaits hawaits))

/-- A session with a reference that lacks its target cannot end well. -/
private theorem Sound.exists_finish_eq_error (h : s.Sound done)
    (hid : s.build.arena.body? id = some (.reference none)) : ∃ e, s.finish = .error e := by
  cases hfinish : s.finish with
  | error e => exact ⟨e, rfl⟩
  | ok doc =>
    -- a document is made only if no reference lacks its target
    have hnil := h.queued_eq_nil_iff.mp (finish_eq_ok_iff.mp hfinish).1
    have hmem := Arena.mem_unresolved_iff.mpr hid
    rw [hnil] at hmem
    cases hmem

/-- When a root comes to a node after other roots, also such as failed, a reference without a target
is met from the node exactly if the others left a type inside the root unfinished.  If none of them
failed, none is met.  If one is met, the session cannot end well, whatever roots follow. -/
theorem compileRoot_unresolvedBelow_iff {decls : List TypeDecl} {c : Catalog}
    (hc : Catalog.ofDecls decls = .ok c) (options : Options) (ts : List TypeId) {t : TypeId}
    {id : NodeId} {s' : Session}
    (hok : ((({ options } : Compiler).session c).after ts).compileRoot t = (.ok id, s')) :
    let s := (({ options } : Compiler).session c).after ts
    (s'.build.arena.UnresolvedBelow id ↔
      ∃ u ∈ FieldPolicy.accessible.inside c t, u ∈ s.build.progress.expandingTypes) ∧
    ((Compiler.compileRoots (({ options } : Compiler).session c) ts).1 = .ok () →
      ¬ s'.build.arena.UnresolvedBelow id) ∧
    (s'.build.arena.UnresolvedBelow id → ∀ us, ∃ e, (s'.after us).finish = .error e) := by
  intro s
  have hbegin := sound_session .accessible options c
  -- the invariant holds before and after the root, which are of the same catalog and policy
  have hs : s.Sound _ := hbegin.after ts
  have hroot : CompilesRoot s t (.ok id, s') := hok ▸ compilesRoot hs.strategies t
  have hs' := hs.of_ok hroot
  have hsetting : s'.catalog = c ∧ s'.compiler.policy = .accessible := by
    obtain ⟨hcatalog, hcompiler⟩ := after_setting (({ options } : Compiler).session c) ts
    obtain ⟨hcatalog', hcompiler'⟩ := hroot.setting_eq
    exact ⟨hcatalog'.trans hcatalog, by rw [hcompiler', hcompiler]; rfl⟩
  obtain ⟨hcatalog, hpolicy⟩ := hsetting
  -- a root that comes to a node completes what it has begun
  have hexpanding : s'.build.progress.expandingTypes = s.build.progress.expandingTypes := by
    cases hroot with
    | ok _ hrun => exact hrun.expandingTypes_eq rfl
  have hclosed : s'.catalog.Closed := by
    rw [hcatalog]
    exact Catalog.closed_of_ofDecls hc
  have hnodup : ((s'.compiler.policy s'.catalog t).map (·.name)).Nodup := by
    rw [hpolicy]
    exact FieldPolicy.accessible_names_nodup _ _
  -- the invariant after the root gives the types inside, and the root has left no others unfinished
  have hiff := hs'.unresolvedBelow_iff hclosed hnodup (hroot.holdsRoot hs.build)
  rw [hcatalog, hpolicy, hexpanding] at hiff
  refine ⟨hiff, fun hall hbelow => ?_, ?_⟩
  · -- no root failed, so nothing is unfinished
    have hnone := (compileRoots_ok hbegin.strategies hall).2.2.2
    obtain ⟨u, _, hu⟩ := hiff.mp hbelow
    rw [show s.build.progress.expandingTypes = [] from hnone] at hu
    cases hu
  · -- no later root fills the reference in
    rintro ⟨i, _, hbody⟩ us
    obtain ⟨n, hn, _⟩ := Arena.exists_get?_of_body? hbody
    have hkept := (grows_after hs'.strategies us).nodes i
      (Arena.mem_ids_iff.mpr (Arena.index_lt_of_get? hn))
    have hstays : (s'.after us).build.arena.body? i = some (.reference none) := by
      rw [Arena.body?, hkept]
      exact hbody
    exact (hs'.after us).exists_finish_eq_error hstays

/-! ## A record that was left unfinished -/

/-- If the limit cuts the record with a field of its own type off, it comes to a placeholder when it
is compiled once more. -/
theorem compileRoot_unresolvedBelow_cyclic :
    Catalog.ofDecls cyclicDecls = .ok cyclicCatalog ∧
    ∃ id s', (cyclicSession { maxDepth := 1 } [⟨12⟩]).compileRoot ⟨12⟩ = (.ok id, s') ∧
      s'.build.arena.body? id = some (.reference none) ∧ s'.build.arena.UnresolvedBelow id := by
  have hbody : ((cyclicSession { maxDepth := 1 } [⟨12⟩]).compileRoot ⟨12⟩).2.build.arena.body? ⟨2⟩ =
      some (.reference none) := by decide +kernel
  have hok : ((cyclicSession { maxDepth := 1 } [⟨12⟩]).compileRoot ⟨12⟩).1 = .ok ⟨2⟩ := by
    decide +kernel
  exact ⟨ofDecls_cyclicDecls, ⟨2⟩, _, Prod.ext hok rfl, hbody,
    Arena.unresolvedBelow_iff.mpr (.inl hbody)⟩

/-- That session cannot end well any more; without the limit, nothing without a target is met from
the object of the record. -/
theorem compileRoot_unresolvedBelow_iff_cyclic :
    (∀ us, ∃ e,
      (((cyclicSession { maxDepth := 1 } [⟨12⟩]).compileRoot ⟨12⟩).2.after us).finish = .error e) ∧
    ((cyclicSession {} [⟨13⟩]).compileRoot ⟨12⟩).1 = .ok ⟨2⟩ ∧
    ¬ ((cyclicSession {} [⟨13⟩]).compileRoot ⟨12⟩).2.build.arena.UnresolvedBelow ⟨2⟩ := by
  -- unfolded, the sessions are those of the theorem as they stand, and are not run to compare them
  unfold cyclicSession
  -- both outcomes are run; what is met below the nodes is not searched for
  have hcut : (((({ options := { maxDepth := 1 } } : Compiler).session cyclicCatalog).after
      [⟨12⟩]).compileRoot ⟨12⟩).1 = .ok ⟨2⟩ := by decide +kernel
  have hwhole : (((({} : Compiler).session cyclicCatalog).after [⟨13⟩]).compileRoot ⟨12⟩).1 =
      .ok ⟨2⟩ := by decide +kernel
  obtain ⟨hiff, _, herror⟩ :=
    compileRoot_unresolvedBelow_iff ofDecls_cyclicDecls { maxDepth := 1 } [⟨12⟩] (Prod.ext hcut rfl)
  obtain ⟨_, hnone, _⟩ :=
    compileRoot_unresolvedBelow_iff ofDecls_cyclicDecls {} [⟨13⟩] (Prod.ext hwhole rfl)
  refine ⟨herror (hiff.mpr ⟨⟨12⟩, ?_, ?_⟩), hwhole, hnone ?_⟩ <;>
  decide +kernel

end Session

end Schemata
