import Schemata.Proofs.Rendering
import Schemata.Proofs.Session.Components
import Schemata.Proofs.Walk.Forest

/-!
# Documents are forests

When all roots of a compilation come to a node, every node of the document is a component, a root,
or owned by one other node, and no node is below itself.  So rendering a document comes to an end
and visits no node twice from its components.

## Key results

- `compileRoots_forest`: after roots that all come to a node, only nodes of roots are loose
- `compileMany_forest`: the nodes of a document, and how they are rendered
-/

namespace Schemata

namespace Session

variable {s : Session} {done ts : List TypeId} {t : TypeId}

/-- A root that comes to a node leaves a forest whose loose nodes are those of roots. -/
private theorem Sound.forest_of_ok {s' : Session} {id : NodeId} (h : s.Sound done)
    (hpolicy : ∀ t, ((s.compiler.policy s.catalog t).map (·.name)).Nodup)
    (hforest : s.build.arena.Forest (s.build.arena.plain s.roots))
    (hroot : CompilesRoot s t (.ok id, s')) :
    s'.build.arena.Forest (s'.build.arena.plain s'.roots) := by
  -- a root that fails may leave loose nodes, which is why only success is considered
  cases hroot with
  | @ok id b p ht hrun =>
    -- the walk keeps what was loose and adds the node of this root, if that is no object
    have hgrown : b.arena.Forest (b.arena.plain [id] ++ s.build.arena.plain s.roots) :=
      hrun.forest h.build trivial hpolicy trivial hforest rfl
    -- what the earlier roots came to has not changed
    have hplain : b.arena.plain s.roots = s.build.arena.plain s.roots := by
      refine List.filter_congr fun i hi => ?_
      have hlt := hforest.index_lt_of_plain hi
      rw [Arena.isObject_congr (hrun.extends.body?_eq hlt)]
    have happend : b.arena.plain (s.roots ++ [id]) = b.arena.plain s.roots ++ b.arena.plain [id] :=
      List.filter_append _ _
    show b.arena.Forest (b.arena.plain (s.roots ++ [id]))
    rw [happend, hplain]
    exact hgrown.of_perm List.perm_append_comm

/-- After roots that all come to a node, the loose nodes are those of roots. -/
theorem Sound.compileRoots_forest (h : s.Sound done)
    (hpolicy : ∀ t, ((s.compiler.policy s.catalog t).map (·.name)).Nodup)
    (hforest : s.build.arena.Forest (s.build.arena.plain s.roots))
    (hok : (Compiler.compileRoots s ts).1 = .ok ()) :
    (s.after ts).build.arena.Forest ((s.after ts).build.arena.plain (s.after ts).roots) := by
  -- the invariant: what is loose is what the roots came to
  induction ts generalizing s done with
  | nil => exact hforest
  | cons t ts ih =>
    obtain ⟨id, s', hr, hroot, hrest⟩ := compileRoots_cons_ok h.strategies hok
    obtain ⟨hcatalog, hcompiler⟩ := hroot.setting_eq
    dsimp only at hcatalog hcompiler
    rw [Session.after, hr]
    refine ih (h.of_ok hroot) ?_ (h.forest_of_ok hpolicy hforest hroot) hrest
    -- catalog and policy are those of the session before
    rw [hcatalog, hcompiler]
    exact hpolicy

end Session

/-- A document is a forest: all places that it mentions are in use, no node is below itself, no node
is owned twice, no object is owned, and every node is a root, a component, or owned by one node. -/
structure Document.IsForest (doc : Document) : Prop where
  inside : ∀ id ∈ doc.arena.children ++ doc.roots ++ doc.components.map (·.2), id ∈ doc.arena.ids
  acyclic : ∀ id, ¬ Relation.TransGen doc.arena.IsChild id id
  nodup : doc.arena.children.Nodup
  objects : ∀ id ∈ doc.arena.children, ∀ name, doc.arena.body? id ≠ some (.object name)
  owned : ∀ id ∈ doc.arena.ids,
    id ∈ doc.roots ∨ id ∈ doc.components.map (·.2) ∨ ∃! owner, doc.arena.IsChild id owner

namespace Session

variable {s : Session} {done : List TypeId}

/-- If no type is left unfinished and only nodes of roots are loose, the document is a forest. -/
private theorem Sound.isForest (h : s.Sound done) (hnone : s.build.progress.expandingTypes = [])
    (hforest : s.build.arena.Forest (s.build.arena.plain s.roots)) : s.document.IsForest := by
  -- components are the completed objects, and with no type unfinished these are all objects
  have hobjects : ∀ {id}, id ∈ s.document.components.map (·.2) ↔ id ∈ s.build.arena.objects := by
    intro id
    rw [components_eq]
    exact (h.nodes_perm hnone).mem_iff
  constructor
  case inside =>
    intro id hid
    rw [List.mem_append, List.mem_append] at hid
    rcases hid with (hchild | hroot) | hcomponent
    · exact hforest.mem_ids_of_mem_children hchild
    · exact Arena.mem_ids_iff.mpr (hforest.index_lt_of_plain hroot)
    · obtain ⟨name, hbody⟩ := Arena.mem_objects_iff.mp (hobjects.mp hcomponent)
      exact Arena.mem_ids_iff.mpr (Arena.index_lt_of_body? hbody)
  case acyclic => exact hforest.acyclic
  case nodup => exact hforest.nodup_children
  case objects =>
    intro id hid name hbody
    have hobject : s.build.arena.isObject id = true := Arena.isObject_iff.mpr ⟨name, hbody⟩
    rw [hforest.isObject_of_mem_children hid] at hobject
    cases hobject
  -- a stored node is owned, or an object, or loose, and loose nodes are roots
  case owned =>
    intro id hid
    rcases hforest.mem_or hid with hchild | hobject | hloose
    · obtain ⟨owner, _, howner⟩ := List.mem_flatMap.mp hchild
      exact .inr (.inr ⟨owner, howner, fun other hother =>
        Arena.IsChild.unique hforest.nodup_children hother howner⟩)
    · exact .inr (.inl (hobjects.mpr hobject))
    · exact .inl (List.mem_of_mem_filter hloose)

end Session

namespace Document

variable {doc : Document}

/-- In a forest, rendering comes to an end, and no node is visited twice from the components. -/
private theorem IsForest.exists_visited (h : doc.IsForest)
    (hcomponents : (doc.components.map (·.2)).Nodup)
    (hobjects : ∀ id ∈ doc.components.map (·.2), ∃ name, doc.arena.body? id = some (.object name)) :
    ∃ visited : NodeId → List NodeId,
      (∀ id ∈ doc.arena.ids, doc.arena.Renders id (doc.renderNode id) (visited id) ∧
        ∀ i ∈ visited id, i ∈ doc.arena.ids) ∧
      ((doc.components.map (·.2)).flatMap visited).Nodup := by
  have hin : ∀ {child parent}, doc.arena.IsChild child parent → child ∈ doc.arena.ids :=
    fun hchild => h.inside _ (List.mem_append_left _ (List.mem_append_left _ hchild.mem_children))
  -- the nodes visited below each place in use, chosen for all of them at once
  have hrenders : ∀ id, ∃ v, id ∈ doc.arena.ids → doc.arena.Renders id (doc.renderNode id) v := by
    intro id
    by_cases hid : id ∈ doc.arena.ids
    · obtain ⟨v, hv⟩ := Arena.exists_renders hin h.acyclic hid
      exact ⟨v, fun _ => hv⟩
    · exact ⟨[], fun hmem => absurd hmem hid⟩
  choose visited hvisited using hrenders
  have hcomponent : ∀ {id}, id ∈ doc.components.map (·.2) →
      doc.arena.Renders id (doc.renderNode id) (visited id) :=
    fun hid => hvisited _ (h.inside _ (List.mem_append_right _ hid))
  -- a component is an object, so it is below no other node
  have hapart : ∀ {p q}, p ∈ doc.components.map (·.2) → p ≠ q →
      -- by `cases_head`, a path upwards begins with an owner, and objects have none
      ¬ Relation.ReflTransGen doc.arena.IsChild p q := by
    intro p q hp hne hbelow
    rcases hbelow.cases_head with he | ⟨owner, howner, _⟩
    · exact hne he
    · obtain ⟨name, hbody⟩ := hobjects p hp
      exact h.objects p howner.mem_children name hbody
  refine ⟨visited, fun id hid => ⟨hvisited id hid, fun i hi => (hvisited id hid).mem_ids hi⟩, ?_⟩
  -- each component visits no node twice, and two components visit no node together
  rw [List.nodup_flatMap]
  refine ⟨fun id hid => (hcomponent hid).nodup h.nodup h.acyclic, ?_⟩
  refine hcomponents.imp_of_mem fun {p q} hp hq hne => ?_
  exact (hcomponent hp).disjoint h.nodup (hcomponent hq) (hapart hp hne) (hapart hq hne.symm)

end Document

namespace Session

/-- The document of a compilation is a forest.  Every node of it can be rendered without a bound on
the levels, with the result that the bound gives; all nodes that are visited for it are stored; and
no node is visited twice from the components. -/
theorem compileMany_forest (options : Options) (c : Catalog) {roots : List TypeId} {doc : Document}
    (hdoc : ({ options } : Compiler).compileMany c roots = .ok doc) :
    doc.IsForest ∧ ∃ visited : NodeId → List NodeId,
      (∀ id ∈ doc.arena.ids, doc.arena.Renders id (doc.renderNode id) (visited id) ∧
        ∀ i ∈ visited id, i ∈ doc.arena.ids) ∧
      ((doc.components.map (·.2)).flatMap visited).Nodup := by
  have hbegin := sound_session .accessible options c
  obtain ⟨hroots, _, rfl⟩ := compileMany_eq_ok rfl hdoc
  obtain ⟨_, _, _, hnone⟩ := compileRoots_ok hbegin.strategies hroots
  have hs := hbegin.after roots
  -- the empty session is a forest, and every root of this compilation comes to a node
  have hforest := hbegin.compileRoots_forest (FieldPolicy.accessible_names_nodup c)
    Arena.Forest.empty hroots
  have hisForest := hs.isForest hnone hforest
  refine ⟨hisForest, hisForest.exists_visited ?_ fun id hid => ?_⟩
  · rw [components_eq]
    exact hs.nodes_nodup
  · rw [components_eq] at hid
    exact Arena.mem_objects_iff.mp ((hs.nodes_perm hnone).subset hid)

/-- A record with a field of its own type and one with a collection: below the object are the
reference to it and the collection, and below that is its element, which was stored before it. -/
theorem compileMany_forest_cyclic :
    ({} : Compiler).compileMany cyclicCatalog [⟨12⟩, ⟨13⟩] =
      .ok (cyclicSession {} [⟨12⟩, ⟨13⟩]).document ∧
    (cyclicSession {} [⟨12⟩, ⟨13⟩]).document.arena.children.length = 4 ∧
    (cyclicSession {} [⟨12⟩, ⟨13⟩]).document.IsForest ∧
    ∃ visited : NodeId → List NodeId,
      (∀ id ∈ (cyclicSession {} [⟨12⟩, ⟨13⟩]).document.arena.ids,
        (cyclicSession {} [⟨12⟩, ⟨13⟩]).document.arena.Renders id
          ((cyclicSession {} [⟨12⟩, ⟨13⟩]).document.renderNode id) (visited id) ∧
        ∀ i ∈ visited id, i ∈ (cyclicSession {} [⟨12⟩, ⟨13⟩]).document.arena.ids) ∧
      (((cyclicSession {} [⟨12⟩, ⟨13⟩]).document.components.map (·.2)).flatMap visited).Nodup := by
  have hdoc : ({} : Compiler).compileMany cyclicCatalog [⟨12⟩, ⟨13⟩] =
      .ok (cyclicSession {} [⟨12⟩, ⟨13⟩]).document := by decide +kernel
  exact ⟨hdoc, by decide +kernel, compileMany_forest {} cyclicCatalog hdoc⟩

end Session

end Schemata
