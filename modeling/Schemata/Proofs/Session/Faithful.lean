import Schemata.Proofs.OrderedMap
import Schemata.Proofs.Session.Finish

/-!
# Documents say what was compiled

In the document of a session that finishes, the object of every completed record has the properties
that the record's fields ask for, in their order, and the node of every root stands for that root.
Roots that failed may have left records unfinished; nothing refers to these, or the session would
not have finished.

## Key results

- `Sound.refersTo`: in a finished document, what holds a record refers to its object
- `Sound.describes`: the properties of a completed record
- `document_is_faithful`: documents say what was compiled
-/

namespace Schemata

namespace Document

/-- A node refers to a record: its target is the name of the object of that record, and it resolves
to it. -/
def RefersTo (doc : Document) (t : TypeId) (id : NodeId) : Prop :=
  ∃ object name, doc.nodeFor? t = some object ∧
    doc.arena.body? object = some (.object name) ∧
    doc.arena.get? id = some (.reference (doc.refPrefix ++ name)) ∧
    doc.resolve id = some object

/-- A node stands for a type as the value of a field. -/
abbrev Represents (doc : Document) (c : Catalog) (t : TypeId) (id : NodeId) : Prop :=
  doc.arena.Represents c doc.RefersTo t id

/-- A node stands for a root: a record is its own object, and all else is as in a field. -/
structure RepresentsRoot (doc : Document) (c : Catalog) (t : TypeId) (id : NodeId) : Prop where
  record : c.isRecord t = true → doc.nodeFor? t = some id
  plain : c.isRecord t = false → doc.Represents c t id

/-- A node is an object whose properties are those of a list of fields: they have the names of the
fields, in order, and stand for their types. -/
def Describes (doc : Document) (c : Catalog) (fields : List Field) (id : NodeId) : Prop :=
  ∃ node, doc.arena.get? id = some node ∧ (∃ name, node.body = .object name) ∧
    node.properties.names = fields.map (·.name) ∧
    ∀ f ∈ fields, ∃ child, node.properties.get? f.name = some child ∧
      doc.Represents c f.type child

end Document

namespace Build

variable {fs : List Field} {children : List NodeId}

/-- Properties for fields with different names are listed as the fields are. -/
theorem entries_writeFields (hnodup : (fs.map (·.name)).Nodup)
    (hlength : fs.length = children.length) :
    (writeFields .empty fs children).entries = (fs.map (·.name)).zip children := by
  have hnames : ((fs.map (·.name)).zip children).map (·.1) = fs.map (·.name) :=
    List.map_fst_zip (by rw [List.length_map]; exact Nat.le_of_eq hlength)
  -- writing names that are all new appends them
  rw [writeFields, OrderedMap.entries_foldl_insert]
  · exact List.nil_append _
  · rw [hnames, OrderedMap.names_empty, List.nil_append]
    exact hnodup

/-- Their names are those of the fields. -/
theorem names_writeFields (hnodup : (fs.map (·.name)).Nodup)
    (hlength : fs.length = children.length) :
    (writeFields .empty fs children).names = fs.map (·.name) := by
  rw [OrderedMap.names, entries_writeFields hnodup hlength]
  exact List.map_fst_zip (by rw [List.length_map]; exact Nat.le_of_eq hlength)

/-- Under the name of each field its child is found. -/
private theorem exists_get?_writeFields {R : Field → NodeId → Prop} (h : List.Forall₂ R fs children)
    (hnodup : (fs.map (·.name)).Nodup) {f : Field} (hf : f ∈ fs) :
    ∃ child, (writeFields .empty fs children).get? f.name = some child ∧ R f child := by
  have hlength := h.length_eq
  obtain ⟨i, hi, rfl⟩ := List.getElem_of_mem hf
  -- the child of a field stands at the same place as the field
  have hi' : i < children.length := by omega
  have hmem : (fs[i].name, children[i]) ∈ (fs.map (·.name)).zip children := by
    have hlt : i < ((fs.map (·.name)).zip children).length := by
      rw [List.length_zip, List.length_map]
      omega
    have hat := List.getElem_mem hlt
    rwa [List.getElem_zip, List.getElem_map] at hat
  refine ⟨children[i], OrderedMap.get?_of_mem ?_ ?_, h.get hi hi'⟩
  -- a map with distinct names finds what it lists
  · rw [names_writeFields hnodup hlength]
    exact hnodup
  · rw [entries_writeFields hnodup hlength]
    exact hmem

end Build

namespace Session

variable {s : Session} {done : List TypeId} {t : TypeId} {id : NodeId}

/-- If no fix-up is queued, nothing waits. -/
theorem Sound.not_awaits (h : s.Sound done) (hqueued : s.build.progress.queued = [])
    {refPrefix : String} : ¬ s.build.Awaits refPrefix t id := by
  intro hawaits
  have hmem := h.build.mem_queued_iff.mpr hawaits
  rw [hqueued] at hmem
  cases hmem

/-- If no fix-up is queued, what holds a record refers to its object. -/
theorem Sound.refersTo (h : s.Sound done) (hqueued : s.build.progress.queued = [])
    (hid : s.build.Refers s.compiler.options.refPrefix t id) : s.document.RefersTo t id := by
  rcases hid with hawaits | ⟨object, name, hobject, hbody, hnode⟩
  · -- a placeholder would have kept the session from finishing
    exact absurd hawaits (h.not_awaits hqueued)
  · refine ⟨object, name, h.build.recorded.node?_of_mem hobject, hbody, hnode, ?_⟩
    -- by its target the reference is looked up among the components
    have htarget := Arena.body?_of_get? hnode
    rw [s.document.resolve_of_target htarget]
    exact h.component?_of_completed hobject hbody

/-- If no fix-up is queued, what holds a record has the name of the record in its target. -/
theorem Sound.exists_target (h : s.Sound done) (hqueued : s.build.progress.queued = [])
    (hid : s.build.Refers s.compiler.options.refPrefix t id) :
    ∃ name, s.build.names.name? t = some name ∧
      s.build.arena.get? id = some (.reference (s.compiler.options.refPrefix ++ name)) := by
  rcases hid with hawaits | ⟨object, name, hobject, hbody, hnode⟩
  · exact absurd hawaits (h.not_awaits hqueued)
  · obtain ⟨name', hname, hbody'⟩ := h.build.recorded.node hobject
    rw [hbody, Option.some.injEq, Body.object.injEq] at hbody'
    subst hbody'
    exact ⟨name, hname, hnode⟩

/-- If no fix-up is queued, nodes stand for types in the document as they do in the build. -/
private theorem Sound.represents (h : s.Sound done) (hqueued : s.build.progress.queued = [])
    (hid : s.build.Represents s.setting t id) : s.document.Represents s.catalog t id :=
  hid.mono (fun hn _ => hn) fun hheld => h.refersTo hqueued hheld

/-- If no fix-up is queued, the object of a completed record has the properties that its fields ask
for. -/
theorem Sound.describes (h : s.Sound done) (hqueued : s.build.progress.queued = [])
    (hnodup : ((s.compiler.policy s.catalog t).map (·.name)).Nodup)
    (hid : (t, id) ∈ s.build.progress.completed) :
    s.document.Describes s.catalog (s.compiler.policy s.catalog t) id := by
  obtain ⟨name, children, hnode, hchildren⟩ := h.described t id hid
  refine ⟨_, hnode, ⟨name, rfl⟩, Build.names_writeFields hnodup hchildren.length_eq,
    fun f hf => ?_⟩
  -- the properties are those that were written when the record was completed, field by field
  obtain ⟨child, hget, hchild⟩ := Build.exists_get?_writeFields hchildren hnodup hf
  exact ⟨child, hget, h.represents hqueued hchild⟩

/-- If no fix-up is queued, the node of a root stands for it. -/
private theorem Sound.representsRoot (h : s.Sound done) (hqueued : s.build.progress.queued = [])
    (hid : s.build.HoldsRoot s.setting t id) : s.document.RepresentsRoot s.catalog t id where
  record hrecord := by
    cases hid.record hrecord with
    -- a record as a root is its own object, not a reference to it
    | inl hobject => exact h.build.recorded.node?_of_mem hobject
    | inr hawaits => exact absurd hawaits (h.not_awaits hqueued)
  plain hplain := h.represents hqueued (hid.plain hplain)

/-- When a session finishes after any roots, also such as failed, the object of every completed
record has the properties that the usual policy asks for, in order, and the nodes of the roots that
did not fail stand for them. -/
theorem document_is_faithful (options : Options) (c : Catalog) (ts : List TypeId) :
    let s := (({ options } : Compiler).session c).after ts
    ∀ doc, s.finish = .ok doc →
      (∀ t id, (t, id) ∈ s.build.progress.completed →
        doc.Describes c (FieldPolicy.accessible c t) id) ∧
      List.Forall₂ (doc.RepresentsRoot c) ((({ options } : Compiler).session c).succeeded ts)
        doc.roots := by
  intro s doc hdoc
  have hs := (sound_session .accessible options c).after ts
  -- neither the policy nor the catalog changes from root to root
  obtain ⟨hcatalog, hcompiler⟩ :=
    after_setting (({ options } : Compiler).session c) ts
  obtain ⟨hnil, rfl⟩ := finish_eq_ok_iff.mp hdoc
  have hpolicy : s.compiler.policy = FieldPolicy.accessible := by rw [hcompiler]; rfl
  have hcatalog : s.catalog = c := hcatalog
  refine ⟨fun t id hid => ?_, ?_⟩
  · have hnodup := FieldPolicy.accessible_names_nodup s.catalog t
    rw [← hpolicy] at hnodup
    have hdescribes := hs.describes hnil hnodup hid
    rw [hpolicy, hcatalog] at hdescribes
    exact hdescribes
  -- the roots that succeeded and their nodes are paired one by one
  · have hroots := hs.roots.imp fun t id hid => hs.representsRoot hnil hid
    rw [hcatalog] at hroots
    exact hroots

/-- A record with a field of its own type is described, after a root that failed. -/
theorem document_is_faithful_cyclic :
    (cyclicSession {} [⟨99⟩, ⟨12⟩]).finish = .ok (cyclicSession {} [⟨99⟩, ⟨12⟩]).document ∧
    (cyclicSession {} [⟨99⟩, ⟨12⟩]).document.Describes cyclicCatalog
      (FieldPolicy.accessible cyclicCatalog ⟨12⟩) ⟨0⟩ ∧
    List.Forall₂ ((cyclicSession {} [⟨99⟩, ⟨12⟩]).document.RepresentsRoot cyclicCatalog) [⟨12⟩]
      (cyclicSession {} [⟨99⟩, ⟨12⟩]).document.roots := by
  have hfinish : (cyclicSession {} [⟨99⟩, ⟨12⟩]).finish =
      .ok (cyclicSession {} [⟨99⟩, ⟨12⟩]).document :=
    finish_eq_ok_iff.mpr ⟨by decide +kernel, rfl⟩
  have hsucceeded : (({} : Compiler).session cyclicCatalog).succeeded [⟨99⟩, ⟨12⟩] = [⟨12⟩] := by
    decide +kernel
  obtain ⟨hrecords, hroots⟩ := document_is_faithful {} cyclicCatalog [⟨99⟩, ⟨12⟩] _ hfinish
  rw [hsucceeded] at hroots
  exact ⟨hfinish, hrecords ⟨12⟩ ⟨0⟩ (by decide +kernel), hroots⟩

end Session

end Schemata
