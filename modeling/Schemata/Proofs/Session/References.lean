import Schemata.Proofs.Session.Written
import Schemata.Proofs.Walk.Layered

/-!
# References in the JSON of a document

The JSON of a document that was finished, also after roots that failed, can be read on its own: each
component is written under its own name with all of its properties, and what is written as a
reference names one of these components.  Member names, enumerated values and the beginning of
targets may be any texts, so references are told from other members by their values: a property
named like a reference has no text as its value.

## Key results

- `exists_reference_of_hasText`: references in JSON come from references in the arena
- `Sound.exists_component_of_target`: the target of a reference is that of a component
- `Sound.renderNode_of_completed`: a component is written with all of its properties
- `finish_isSelfContained`: the JSON of a finished document can be read on its own
-/

namespace Schemata

/-! ## Texts inside of a value -/

/-- Somewhere inside of a value there is an object with a member of this name that is this text. -/
inductive Json.HasText (name text : String) : Json → Prop where
  | here {members} (h : (name, .string text) ∈ members) : HasText name text (.object members)
  | member {members m} (hm : m ∈ members) (h : HasText name text m.2) :
      HasText name text (.object members)
  | item {items j} (hj : j ∈ items) (h : HasText name text j) : HasText name text (.array items)

namespace Json

variable {name text : String}

/-- Nothing is inside of a text. -/
@[simp]
theorem not_hasText_string (value : String) : ¬ (Json.string value).HasText name text :=
  fun h => nomatch h

@[simp]
theorem not_hasText_null : ¬ Json.null.HasText name text := fun h => nomatch h

private theorem hasText_object_iff {members : List (String × Json)} :
    (Json.object members).HasText name text ↔
      (name, .string text) ∈ members ∨ ∃ m ∈ members, m.2.HasText name text := by
  constructor
  · intro h
    cases h with
    | here h => exact .inl h
    | member hm h => exact .inr ⟨_, hm, h⟩
  · rintro (h | ⟨m, hm, h⟩)
    · exact .here h
    · exact .member hm h

@[simp]
theorem not_hasText_nil : ¬ (Json.object []).HasText name text := by
  simp [hasText_object_iff]

/-- A text is the first member, or inside of it, or further on. -/
@[simp]
theorem hasText_cons_iff {key : String} {j : Json} {members : List (String × Json)} :
    (Json.object ((key, j) :: members)).HasText name text ↔
      (key = name ∧ j = .string text) ∨ j.HasText name text ∨
        (Json.object members).HasText name text := by
  simp only [hasText_object_iff, List.mem_cons, Prod.mk.injEq, exists_eq_or_imp]
  -- a member comes first or is among the others, in both parts of the definition
  grind

@[simp]
theorem hasText_array_iff {items : List Json} :
    (Json.array items).HasText name text ↔ ∃ j ∈ items, j.HasText name text := by
  constructor
  · intro h
    cases h with
    | item hj h => exact ⟨_, hj, h⟩
  · rintro ⟨j, hj, h⟩
    exact .item hj h

@[simp]
theorem not_hasText_strings (values : List String) : ¬ (strings values).HasText name text := by
  simp [strings]

/-- Members that are not written as texts may have any names. -/
private theorem exists_of_hasText_map {α : Type} {entries : List (String × α)} {f : α → Json}
    -- without this a property could have the name `$ref` and be mistaken for a reference
    (hf : ∀ x text, f x ≠ .string text)
    (h : (Json.object (entries.map fun p => (p.1, f p.2))).HasText name text) :
    ∃ p ∈ entries, (f p.2).HasText name text := by
  rcases hasText_object_iff.mp h with hmem | ⟨m, hm, htext⟩
  · obtain ⟨p, _, hp⟩ := List.mem_map.mp hmem
    exact absurd (congrArg Prod.snd hp) (hf p.2 text)
  · obtain ⟨p, hp, rfl⟩ := List.mem_map.mp hm
    exact ⟨p, hp, htext⟩

end Json

/-! ## Where references come from -/

/-- A reference in what is written for a node is its own, or is inside of a node that is rendered
inside of it.  A property may have the name of a reference, but is not written as a text. -/
private theorem Node.body_or_inner_of_hasText {child : NodeId → Json} {n : Node} {text : String}
    (hchild : ∀ i text, child i ≠ .string text)
    (h : (Json.object (n.render child)).HasText "$ref" text) :
    n.body = .reference (some text) ∨ ∃ i ∈ n.inner, (child i).HasText "$ref" text := by
  rw [render] at h
  rw [inner]
  cases hbody : n.body with
  | object name =>
    simp only [hbody, Json.hasText_cons_iff, String.reduceEq, false_and, reduceCtorEq, and_false,
      false_or, Json.not_hasText_string, Json.not_hasText_nil, or_false] at h
    obtain ⟨p, hp, htext⟩ := Json.exists_of_hasText_map hchild h
    exact .inr ⟨p.2, List.mem_map.mpr ⟨p, hp, rfl⟩, htext⟩
  | array items =>
    cases items with
    | none => simp [hbody] at h
    | some items =>
      simp only [hbody, Json.hasText_cons_iff, String.reduceEq, false_and, false_or,
        Json.not_hasText_string, Json.not_hasText_nil, or_false] at h
      exact .inr ⟨items, List.mem_singleton_self items, h⟩
  -- scalars, enumerations and placeholders have members that are texts, under other names
  | scalar type format => cases format <;> simp [hbody] at h
  | enumeration name values => simp [hbody] at h
  | reference target =>
    cases target with
    | none => simp [hbody] at h
    | some target =>
      simp only [hbody, Json.hasText_cons_iff, Json.string.injEq, true_and,
        Json.not_hasText_string, Json.not_hasText_nil, or_false] at h
      rw [h]
      exact .inl rfl

/-- What begins like a reference is written for a reference. -/
private theorem Node.isReference_of_render {child : NodeId → Json} {n : Node} {text : String}
    (h : n.render child = [("$ref", .string text)]) : n.isReference = true := by
  rw [render] at h
  rw [isReference]
  -- no other body is written with this member alone
  split at h <;> simp_all

variable {a : Arena} {id : NodeId} {text : String}

/-- No node is written as a text. -/
private theorem Arena.render_ne_string (a : Arena) (levels : Nat) (id : NodeId) (text : String) :
    a.render levels id ≠ .string text := by
  intro h
  -- without levels null is written, with levels an object or null
  cases levels with
  | zero => cases h
  | succ levels =>
    rw [render] at h
    split at h <;> cases h

/-- References in JSON come from references in the arena. -/
theorem Arena.exists_reference_of_hasText {levels : Nat}
    (h : (a.render levels id).HasText "$ref" text) :
    ∃ i, a.body? i = some (.reference (some text)) := by
  -- on the levels: a text is written for this node, or by one level less for a node inside
  induction levels generalizing id with
  | zero => exact absurd h Json.not_hasText_null
  | succ levels ih =>
    cases hn : a.get? id with
    | none =>
      rw [render, hn] at h
      exact absurd h Json.not_hasText_null
    | some n =>
      rw [render_of_get? levels hn] at h
      rcases Node.body_or_inner_of_hasText (a.render_ne_string levels) h with hbody | ⟨i, _, hi⟩
      · exact ⟨id, by rw [body?_of_get? hn, hbody]⟩
      · exact ih hi

section Plain

variable {doc : Document} (h : doc.arena.Layered)

include h

/-- A node that is no object is written with the nodes inside of it as these are written. -/
private theorem Document.exists_render_of_plain {body : Body}
    (hbody : doc.arena.body? id = some body) (hplain : ∀ name, body ≠ .object name) :
    ∃ n : Node, n.body = body ∧ doc.renderNode id = .object (n.render doc.renderNode) := by
  obtain ⟨n, hn, rfl⟩ := Arena.exists_get?_of_body? hbody
  obtain ⟨levels, hsize, hwritten⟩ := doc.exists_renderNode hn
  refine ⟨n, rfl, hwritten.trans (congrArg Json.object (Node.render_congr fun i hi => ?_))⟩
  -- what is inside was stored before, so it has levels enough without the one for the node
  obtain ⟨hlt, hobject⟩ := h.of_mem_inner hn hplain hi
  have hid := Arena.index_lt_of_get? hn
  exact h.render_eq hobject (by omega) (by omega)

/-- An array is written with its items, if these are known. -/
private theorem Document.renderNode_of_array {items : Option NodeId}
    (hbody : doc.arena.body? id = some (.array items)) :
    doc.renderNode id = .object (("type", .string "array") ::
      items.toList.map fun i => ("items", doc.renderNode i)) := by
  obtain ⟨n, he, hwritten⟩ := exists_render_of_plain h hbody fun _ hname => nomatch hname
  rw [hwritten, Node.render, he]
  cases items <;> rfl

/-- A scalar is written with its JSON type, and its format if it has one. -/
private theorem Document.renderNode_of_scalar {type : JsonType} {format : Option String}
    (hbody : doc.arena.body? id = some (.scalar type format)) :
    doc.renderNode id = .object (("type", .string (Named.name type)) ::
      format.toList.map fun f => ("format", .string f)) := by
  obtain ⟨n, he, hwritten⟩ := exists_render_of_plain h hbody fun _ hname => nomatch hname
  rw [hwritten, Node.render, he]
  cases format <;> rfl

/-- An enumeration is written with its values. -/
private theorem Document.renderNode_of_enumeration {name : String} {values : List String}
    (hbody : doc.arena.body? id = some (.enumeration name values)) :
    doc.renderNode id = .object [("type", .string "string"), ("enum", .strings values)] := by
  obtain ⟨n, he, hwritten⟩ := exists_render_of_plain h hbody fun _ hname => nomatch hname
  rw [hwritten, Node.render, he]

end Plain

/-- A reference is written by its target. -/
private theorem Document.renderNode_of_reference (doc : Document) {n : Node}
    (hn : doc.arena.get? id = some n) (hbody : n.body = .reference (some text)) :
    doc.renderNode id = .object [("$ref", .string text)] := by
  obtain ⟨levels, _, hwritten⟩ := doc.exists_renderNode hn
  rw [hwritten, Node.render, hbody]

namespace Session

variable {s : Session} {done : List TypeId} {t : TypeId}

/-- The target of a record under the name that it was given. -/
def target (s : Session) (t : TypeId) : String :=
  s.compiler.options.refPrefix ++ (s.build.names.name? t).getD ""

/-- The object of a completed record is a component under its name. -/
private theorem mem_components (hid : (t, id) ∈ s.build.progress.completed) {name : String}
    (hbody : s.build.arena.body? id = some (.object name)) : (name, id) ∈ s.document.components :=
  List.mem_map.mpr ⟨(t, id), hid, componentOf_of_body hbody⟩

/-- The target of a reference is that of a component. -/
theorem Sound.exists_component_of_target (h : s.Sound done)
    (hbody : s.build.arena.body? id = some (.reference (some text))) :
    ∃ name ∈ s.document.components.map (·.1), text = s.document.refPrefix ++ name := by
  obtain ⟨t, object, name, hobject, hname, htext⟩ := h.build.waiting.resolved hbody
  exact ⟨name, List.mem_map.mpr ⟨_, mem_components hobject hname, rfl⟩, htext⟩

/-- If no fix-up is queued, every reference is written by the target of a component. -/
private theorem Sound.renderNode_of_isReference (h : s.Sound done)
    (hqueued : s.build.progress.queued = []) {n : Node} (hn : s.build.arena.get? id = some n)
    (href : n.isReference = true) : ∃ name ∈ s.document.components.map (·.1),
      s.document.renderNode id = .object [("$ref", .string (s.document.refPrefix ++ name))] := by
  rw [Node.isReference] at href
  split at href
  · rename_i target hbody
    cases target with
    | none =>
      -- a placeholder would be waiting for its target
      obtain ⟨u, hu⟩ := h.build.waiting.queued (by rw [Arena.body?_of_get? hn, hbody])
      rw [hqueued] at hu
      cases hu
    | some text =>
      obtain ⟨name, hname, rfl⟩ := h.exists_component_of_target
        (by rw [Arena.body?_of_get? hn, hbody])
      exact ⟨name, hname, s.document.renderNode_of_reference hn hbody⟩
  · cases href

/-- The node of a root that is a component is an object, which is written as a reference to it. -/
private theorem Sound.renderRoot_of_mem (h : s.Sound done)
    (hid : id ∈ s.document.components.map (·.2)) : ∃ name ∈ s.document.components.map (·.1),
      s.document.renderRoot id = .object [("$ref", .string (s.document.refPrefix ++ name))] := by
  have hcompleted := hid
  -- components are the completed records, one by one
  rw [components_eq] at hcompleted
  obtain ⟨⟨t, id⟩, hobject, rfl⟩ := List.mem_map.mp hcompleted
  obtain ⟨name, _, hbody⟩ := h.build.recorded.node hobject
  obtain ⟨n, hn, he⟩ := Arena.exists_get?_of_body? hbody
  refine ⟨name, List.mem_map.mpr ⟨_, mem_components hobject hbody, rfl⟩, ?_⟩
  refine Document.renderRoot_of_component hn ?_ (Document.isComponent_iff.mpr hid)
  rw [Node.refTarget?, Node.name?, he]
  rfl

section Queued

variable (h : s.Sound done) (hqueued : s.build.progress.queued = [])

include h hqueued

/-- What holds a record is a reference to its target. -/
private theorem Sound.get?_of_held (t : TypeId) (id : NodeId)
    (hid : s.build.Refers s.compiler.options.refPrefix t id) :
    -- nothing waits, so the node has the name of the record in its target
    s.build.arena.get? id = some (.reference (s.target t)) := by
  obtain ⟨name, hname, hnode⟩ := h.exists_target hqueued hid
  rw [hnode, target, hname]
  rfl

/-- The object of a completed record is written with all of its properties, each as the node that
it holds. -/
theorem Sound.renderNode_of_completed (hc : s.catalog.Closed)
    (hnodup : ((s.compiler.policy s.catalog t).map (·.name)).Nodup)
    (hid : (t, id) ∈ s.build.progress.completed) :
    ∃ n, s.document.arena.get? id = some n ∧ n.properties.names.Nodup ∧
      s.document.renderNode id = .object [("type", .string "object"),
        ("properties", .object
          (n.properties.entries.map fun p => (p.1, s.document.renderNode p.2)))] := by
  obtain ⟨name, children, hnode, hchildren⟩ := h.described t id hid
  have hbody := Arena.body?_of_get? hnode
  have hnames := Build.names_writeFields hnodup hchildren.length_eq
  obtain ⟨levels, hsize, hwritten⟩ := s.document.exists_renderNode hnode
  refine ⟨_, hnode, hnames.symm ▸ hnodup, ?_⟩
  -- a level more makes no difference, since a child has levels enough below the object
  have hheld := h.get?_of_held hqueued
  have hsame : ∀ child ∈ children,
      s.build.arena.render levels child = s.document.renderNode child := by
    intro child hmem
    obtain ⟨f, _, hchild⟩ := exists_of_forall₂_right hchildren hmem
    have hsteps : s.catalog.elementSteps f.type + 1 < s.document.arena.size :=
      hchild.succ_elementSteps_lt hheld hc hbody
    have hwhole : s.document.renderNode child = s.catalog.schemaOf s.target f.type :=
      hchild.render_eq hheld hc
        (show s.catalog.elementSteps f.type < s.document.arena.size by omega)
    rw [hwhole]
    exact hchild.render_eq hheld hc (show s.catalog.elementSteps f.type < levels by omega)
  have hentries : (Build.writeFields .empty (s.compiler.policy s.catalog t) children).entries.map
      (fun p => (p.1, s.build.arena.render levels p.2)) =
        (Build.writeFields .empty (s.compiler.policy s.catalog t) children).entries.map
          fun p => (p.1, s.document.renderNode p.2) := by
    refine List.map_congr_left fun p hp => ?_
    -- entries pair the fields with their children, so only children are compared
    rw [Build.entries_writeFields hnodup hchildren.length_eq] at hp
    rw [hsame p.2 (List.of_mem_zip hp).2]
  rw [hwritten]
  exact congrArg (fun entries => Json.object [_, ("properties", .object entries)]) hentries

/-- A root is written as a reference only if it is a component. -/
private theorem Sound.mem_components_of_renderRoot (hid : s.build.HoldsRoot s.setting t id)
    (hroot : s.document.renderRoot id = .object [("$ref", .string text)]) :
    id ∈ s.document.components.map (·.2) := by
  -- only records have components, so the cases are on the type of the root
  cases hrecord : s.catalog.isRecord t with
  | true =>
    rcases hid.record hrecord with hobject | hawaits
    · rw [components_eq]
      exact List.mem_map.mpr ⟨_, hobject, rfl⟩
    · exact absurd hawaits (h.not_awaits hqueued)
  | false =>
    -- it is assumed that the root is no component, and shown that it is written as no reference
    by_contra hcomponent
    have hplain : s.document.isComponent id = false := by
      rw [Bool.eq_false_iff, Ne, Document.isComponent_iff]
      exact hcomponent
    -- the node of a type that is no record is no reference, and is written as it is
    obtain ⟨n, hn, hne⟩ : ∃ n, s.build.arena.get? id = some n ∧ n.isReference = false := by
      cases hid.plain hrecord with
      | scalar _ hn | enumeration _ hn | unknownElements _ hn | elements _ hn =>
        exact ⟨_, hn, rfl⟩
      | record htrue =>
        cases hrecord.symm.trans htrue
    obtain ⟨levels, _, hwritten⟩ := s.document.exists_renderNode hn
    rw [Document.renderRoot_of_not_component hplain, hwritten, Json.object.injEq] at hroot
    rw [Node.isReference_of_render hroot] at hne
    cases hne

end Queued

end Session

/-- The JSON of a document can be read on its own: it holds every component under its own name, in
the order of completion, and each with all of its properties; arrays, scalars and enumerations are
written with all that their nodes hold; each reference in it names one of the components, and none
lacks its target; and the roots that are components are written as references, and no others. -/
structure Document.IsSelfContained (doc : Document) : Prop where
  json : doc.render = .object [
    ("roots", .array (doc.roots.map doc.renderRoot)),
    ("components", .object [("schemas",
      .object (doc.components.map fun p => (p.1, doc.renderNode p.2)))])]
  names : (doc.components.map (·.1)).Nodup
  order : doc.components.map (·.2) = doc.completed.map (·.2)
  properties : ∀ p ∈ doc.components, ∃ n, doc.arena.get? p.2 = some n ∧
    n.properties.names.Nodup ∧ doc.renderNode p.2 = .object [("type", .string "object"),
      ("properties", .object (n.properties.entries.map fun q => (q.1, doc.renderNode q.2)))]
  arrays : ∀ id items, doc.arena.body? id = some (.array items) →
    doc.renderNode id = .object (("type", .string "array") ::
      items.toList.map fun i => ("items", doc.renderNode i))
  scalars : ∀ id type format, doc.arena.body? id = some (.scalar type format) →
    doc.renderNode id = .object (("type", .string (Named.name type)) ::
      format.toList.map fun f => ("format", .string f))
  enumerations : ∀ id name values, doc.arena.body? id = some (.enumeration name values) →
    doc.renderNode id = .object [("type", .string "string"), ("enum", .strings values)]
  references : ∀ text, doc.render.HasText "$ref" text →
    ∃ name ∈ doc.components.map (·.1), text = doc.refPrefix ++ name
  targets : ∀ id n, doc.arena.get? id = some n → n.isReference = true →
    ∃ name ∈ doc.components.map (·.1),
      doc.renderNode id = .object [("$ref", .string (doc.refPrefix ++ name))]
  roots : ∀ id ∈ doc.roots, (∃ text, doc.renderRoot id = .object [("$ref", .string text)]) ↔
    id ∈ doc.components.map (·.2)

namespace Session

variable {s : Session} {done : List TypeId}

/-- Items are stored before their arrays after any roots, also such as failed. -/
private theorem Sound.layered_after (h : s.Sound done) (hlayered : s.build.arena.Layered)
    (ts : List TypeId) : (s.after ts).build.arena.Layered := by
  -- a root that fails has a run as well, so the invariant passes through it
  induction ts generalizing s done with
  | nil => exact hlayered
  | cons t ts ih =>
    have hroot := compilesRoot h.strategies t
    obtain ⟨done', hnext⟩ := h.of_compileRoot t
    refine ih hnext ?_
    generalize s.compileRoot t = r at hroot
    cases hroot with
    | unknown => exact hlayered
    | ok _ hrun | failed _ hrun => exact hrun.layered h.build trivial hlayered

/-- No component is lost when the components are written under their names. -/
private theorem Sound.render_eq_components (h : s.Sound done) : s.document.render = .object [
    ("roots", .array (s.document.roots.map s.document.renderRoot)),
    ("components", .object [("schemas",
      .object (s.document.components.map fun p => (p.1, s.document.renderNode p.2)))])] := by
  -- with distinct names, writing one after the other appends
  rw [Document.render, Json.ofMap, OrderedMap.ofList, OrderedMap.entries_foldl_insert]
  · rfl
  · rw [List.map_map]
    exact h.components_nodup

/-- A reference in the JSON of a session's document has the target of a component. -/
private theorem Sound.exists_component_of_hasText (h : s.Sound done)
    (htext : s.document.render.HasText "$ref" text) :
    ∃ name ∈ s.document.components.map (·.1), text = s.document.refPrefix ++ name := by
  -- a reference inside of a component comes from a reference in the arena
  have hnode : ∀ {id}, (s.document.renderNode id).HasText "$ref" text →
      ∃ name ∈ s.document.components.map (·.1), text = s.document.refPrefix ++ name := by
    intro id hid
    obtain ⟨i, hbody⟩ := Arena.exists_reference_of_hasText hid
    exact h.exists_component_of_target hbody
  -- a root is written as a reference to its component, or as it is
  have hroot : ∀ {id}, (s.document.renderRoot id).HasText "$ref" text →
      ∃ name ∈ s.document.components.map (·.1), text = s.document.refPrefix ++ name := by
    intro id hid
    cases hcomponent : s.document.isComponent id with
    | true =>
      obtain ⟨name, hname, he⟩ := h.renderRoot_of_mem (Document.isComponent_iff.mp hcomponent)
      rw [he] at hid
      simp only [Json.hasText_cons_iff, Json.string.injEq, true_and, Json.not_hasText_string,
        Json.not_hasText_nil, or_false] at hid
      exact ⟨name, hname, hid.symm⟩
    | false =>
      rw [Document.renderRoot_of_not_component hcomponent] at hid
      exact hnode hid
  -- either among the roots or among the schemas
  rw [h.render_eq_components] at htext
  simp only [Json.hasText_cons_iff, String.reduceEq, reduceCtorEq, and_false, false_or,
    Json.hasText_array_iff, List.mem_map, exists_exists_and_eq_and, Json.not_hasText_nil,
    or_false] at htext
  rcases htext with ⟨id, _, hid⟩ | hschemas
  · exact hroot hid
  · obtain ⟨p, _, hp⟩ :=
      Json.exists_of_hasText_map (fun id => s.document.arena.render_ne_string _ id) hschemas
    exact hnode hp

/-- If no fix-up is queued, the JSON of a session's document can be read on its own. -/
private theorem Sound.isSelfContained (h : s.Sound done) (hqueued : s.build.progress.queued = [])
    (hlayered : s.build.arena.Layered) (hc : s.catalog.Closed)
    (hnodup : ∀ t, ((s.compiler.policy s.catalog t).map (·.name)).Nodup) :
    s.document.IsSelfContained where
  json := h.render_eq_components
  names := h.components_nodup
  order := components_eq s
  properties p hp := by
    obtain ⟨⟨t, id⟩, hid, rfl⟩ := List.mem_map.mp hp
    exact h.renderNode_of_completed hqueued hc (hnodup t) hid
  arrays _ _ := Document.renderNode_of_array hlayered
  scalars _ _ _ := Document.renderNode_of_scalar hlayered
  enumerations _ _ _ := Document.renderNode_of_enumeration hlayered
  references _ htext := h.exists_component_of_hasText htext
  targets _ _ hn href := h.renderNode_of_isReference hqueued hn href
  roots id hid := by
    constructor
    · rintro ⟨text, hroot⟩
      obtain ⟨t, _, hholds⟩ := exists_of_forall₂_right h.roots hid
      exact h.mem_components_of_renderRoot hqueued hholds hroot
    · intro hcomponent
      obtain ⟨name, _, hroot⟩ := h.renderRoot_of_mem hcomponent
      exact ⟨_, hroot⟩

/-- When a session of an accepted catalog finishes after any roots, also such as failed, the JSON of
its document can be read on its own: it holds all records that were completed, in that order, and
whatever comes before the names in targets, no other references. -/
theorem finish_isSelfContained (options : Options) {decls : List TypeDecl} {c : Catalog}
    (hc : Catalog.ofDecls decls = .ok c) (ts : List TypeId) {doc : Document}
    (hdoc : ((({ options } : Compiler).session c).after ts).finish = .ok doc) :
    doc.completed = ((({ options } : Compiler).session c).after ts).build.progress.completed ∧
      doc.refPrefix = options.refPrefix ∧ doc.IsSelfContained := by
  have hbegin := sound_session .accessible options c
  obtain ⟨hcatalog, hcompiler⟩ := after_setting (({ options } : Compiler).session c) ts
  obtain ⟨hqueued, rfl⟩ := finish_eq_ok_iff.mp hdoc
  refine ⟨rfl, congrArg (·.options.refPrefix) hcompiler, ?_⟩
  refine (hbegin.after ts).isSelfContained hqueued (hbegin.layered_after .empty ts) ?_ ?_
  · rw [hcatalog]
    exact Catalog.closed_of_ofDecls hc
  · rw [hcatalog, hcompiler]
    exact FieldPolicy.accessible_names_nodup c

/-- After a root that failed, a record with a field of its own type is a component, and is written
as a reference where it is a root; the collection beside it is written as it is. -/
theorem finish_isSelfContained_cyclic :
    Catalog.ofDecls cyclicDecls = .ok cyclicCatalog ∧
    (cyclicSession { refPrefix := "$ref" } [⟨99⟩, ⟨12⟩, ⟨13⟩]).finish =
      .ok (cyclicSession { refPrefix := "$ref" } [⟨99⟩, ⟨12⟩, ⟨13⟩]).document ∧
    (cyclicSession { refPrefix := "$ref" } [⟨99⟩, ⟨12⟩, ⟨13⟩]).document.components =
      [("Person", ⟨0⟩)] ∧
    (cyclicSession { refPrefix := "$ref" } [⟨99⟩, ⟨12⟩, ⟨13⟩]).document.roots.length = 2 ∧
    (cyclicSession { refPrefix := "$ref" } [⟨99⟩, ⟨12⟩, ⟨13⟩]).document.refPrefix = "$ref" ∧
    (cyclicSession { refPrefix := "$ref" } [⟨99⟩, ⟨12⟩, ⟨13⟩]).document.IsSelfContained := by
  have hdoc : (cyclicSession { refPrefix := "$ref" } [⟨99⟩, ⟨12⟩, ⟨13⟩]).finish =
      .ok (cyclicSession { refPrefix := "$ref" } [⟨99⟩, ⟨12⟩, ⟨13⟩]).document :=
    finish_eq_ok_iff.mpr ⟨by decide +kernel, rfl⟩
  obtain ⟨_, hprefix, hdocument⟩ :=
    finish_isSelfContained { refPrefix := "$ref" } ofDecls_cyclicDecls [⟨99⟩, ⟨12⟩, ⟨13⟩] hdoc
  exact ⟨ofDecls_cyclicDecls, hdoc, by decide +kernel, by decide +kernel, hprefix, hdocument⟩

end Session

end Schemata
