import Schemata.Document.Render
import Schemata.Proofs.Search
import Schemata.Proofs.Walk.Represents

/-!
# Schemas, read off the catalog

What is written for a type can be said without nodes: a container is an array of its elements, down
to the type inside all containers, and a record is a reference to its target.  A node that stands
for a type is written so, since the arena has more nodes than there are containers to go through.

## Key results

- `Represents.render_eq`: what is written for a node that stands for a type
- `Represents.elementSteps_lt`: no node is as many containers deep as the arena has nodes
- `Catalog.schemaOf` / `Catalog.recordSchema`: what is written for a type, and for a component
-/

namespace Schemata

namespace Catalog

/-! ## Schemas of types -/

/-- An array of given items. -/
def arrayOf (items : Json) : Json := .object [("type", .string "array"), ("items", items)]

/-- What is written for a type without elements, where `target` gives the targets of records. -/
def leafSchema (c : Catalog) (target : TypeId → String) (t : TypeId) : Json :=
  match c.shape? t with
  | some (.scalar s) =>
    .object (("type", .string (Named.name s.jsonType)) ::
      s.format.toList.map fun format => ("format", .string format))
  | some (.enumeration variants) =>
    .object [("type", .string "string"), ("enum", .strings variants)]
  | some (.array _) | some (.collection _) => .object [("type", .string "array")]
  | some .record | none => .object [("$ref", .string (target t))]

/-- What is written for a type: an array for each container, around the type inside of them. -/
def schemaOf (c : Catalog) (target : TypeId → String) (t : TypeId) : Json :=
  Nat.repeat arrayOf (c.elementSteps t) (c.leafSchema target (c.innermost t))

/-- What is written for a record as a component: its fields, and for each what is written for its
type. -/
def recordSchema (c : Catalog) (policy : FieldPolicy) (target : TypeId → String) (t : TypeId) :
    Json :=
  .object [("type", .string "object"),
    ("properties", .object ((policy c t).map fun f => (f.name, c.schemaOf target f.type)))]

variable {c : Catalog} {target : TypeId → String} {t e : TypeId}

/-- A type without elements is no step from the innermost one. -/
theorem elementSteps_of_none (h : c.element? t = none) : c.elementSteps t = 0 := by
  rw [elementSteps, chain_of_none c.size h]
  rfl

/-- A type without elements is written as it is. -/
private theorem schemaOf_of_none (h : c.element? t = none) :
    c.schemaOf target t = c.leafSchema target t := by
  rw [schemaOf, elementSteps_of_none h, innermost_of_none h]
  rfl

/-- A container is an array of its elements. -/
private theorem Closed.schemaOf_of_some (hc : c.Closed) (h : c.element? t = some e) :
    c.schemaOf target t = arrayOf (c.schemaOf target e) := by
  rw [schemaOf, hc.elementSteps_of_some h, hc.innermost_of_some h]
  rfl

/-- A record is a reference to its target. -/
theorem schemaOf_of_isRecord (h : c.isRecord t = true) :
    c.schemaOf target t = .object [("$ref", .string (target t))] := by
  rw [schemaOf_of_none (element?_of_isRecord h), leafSchema]
  rw [isRecord] at h
  -- the shape is that of a record, or there is none
  split at h <;> simp_all

end Catalog

/-! ## What is written for nodes -/

namespace Arena

variable {c : Catalog} {a : Arena} {held : TypeId → NodeId → Prop} {target : TypeId → String}
  {t u e : TypeId} {id : NodeId}

/-- A node that is stored is written, if there is a level for it. -/
theorem render_of_get? {n : Node} (levels : Nat) (h : a.get? id = some n) :
    a.render (levels + 1) id = .object (n.render (a.render levels)) := by
  rw [render, h]

/-- A scalar is written by its JSON type and its format, if it has one. -/
private theorem render_scalar (child : NodeId → Json) (type : JsonType) (format : Option String) :
    (Node.scalar type format).render child =
      ("type", .string (Named.name type)) :: format.toList.map fun f => ("format", .string f) := by
  cases format <;> rfl

/-- There are no more different places than nodes. -/
private theorem length_le_size {l : List NodeId} (hnodup : l.Nodup)
    (hl : ∀ i ∈ l, i.index < a.size) : l.length ≤ a.size := by
  have hle := hnodup.length_le_of_subset fun i hi => mem_ids_iff.mpr (hl i hi)
  rwa [ids, List.length_map, List.length_range] at hle

/-- What stands for a type with elements is an array whose items stand for these. -/
private theorem Represents.exists_items (h : a.Represents c held t id)
    (helement : c.element? t = some e) :
    ∃ items, a.get? id = some (.array (some items)) ∧ a.Represents c held e items := by
  -- of what may stand for a type, only an array of elements stands for one that has elements
  cases h with
  | scalar hshape | enumeration hshape | unknownElements hshape =>
    rw [Catalog.element?_eq_of_shape? hshape] at helement
    cases helement
  | elements hsame hnode hitems =>
    rw [helement, Option.some.injEq] at hsame
    subst hsame
    exact ⟨_, hnode, hitems⟩
  | record hrecord =>
    rw [Catalog.element?_of_isRecord hrecord] at helement
    cases helement

section Represents

variable (hheld : ∀ t id, held t id → a.get? id = some (.reference (target t)))

include hheld

/-- What stands for a type without elements is no array with items. -/
private theorem Represents.get?_ne_array (h : a.Represents c held t id)
    (hnone : c.element? t = none) (items : NodeId) : a.get? id ≠ some (.array (some items)) := by
  intro harray
  -- what stands for such a type is a leaf, or a reference to a record
  cases h with
  | scalar _ hnode | enumeration _ hnode | unknownElements _ hnode =>
    rw [hnode] at harray
    cases harray
  | elements helement =>
    rw [hnone] at helement
    cases helement
  | record _ hid =>
    rw [hheld _ _ hid] at harray
    cases harray

/-- What stands for a type is a node, and no object. -/
theorem Represents.exists_node (h : a.Represents c held t id) :
    ∃ n, a.get? id = some n ∧ ∀ name, n.body ≠ .object name := by
  cases h with
  | scalar _ hnode | enumeration _ hnode | elements _ hnode | unknownElements _ hnode =>
    exact ⟨_, hnode, fun _ he => nomatch he⟩
  | record _ hid => exact ⟨_, hheld _ _ hid, fun _ he => nomatch he⟩

variable (hc : c.Closed)

include hc

/-- A node that stands for a type is written as the schema of that type, if there are levels enough
for its containers. -/
theorem Represents.render_eq (h : a.Represents c held t id) {levels : Nat}
    (hlevels : c.elementSteps t < levels) : a.render levels id = c.schemaOf target t := by
  obtain ⟨levels, rfl⟩ : ∃ n, levels = n + 1 := ⟨levels - 1, by omega⟩
  -- on how the node stands for the type, one level for each container
  induction h generalizing levels with
  | scalar hshape hnode =>
    rw [render_of_get? levels hnode, render_scalar,
      Catalog.schemaOf_of_none (Catalog.element?_eq_of_shape? hshape), Catalog.leafSchema, hshape]
  | enumeration hshape hnode =>
    rw [render_of_get? levels hnode,
      Catalog.schemaOf_of_none (Catalog.element?_eq_of_shape? hshape), Catalog.leafSchema, hshape]
    rfl
  | unknownElements hshape hnode =>
    rw [render_of_get? levels hnode,
      Catalog.schemaOf_of_none (Catalog.element?_eq_of_shape? hshape), Catalog.leafSchema, hshape]
    rfl
  | @elements t id e items helement hnode _ ih =>
    -- the items are one level further down
    have hsteps := hc.elementSteps_of_some helement
    obtain ⟨n, rfl⟩ : ∃ n, levels = n + 1 := ⟨levels - 1, by omega⟩
    have hitems : a.render (n + 1) items = c.schemaOf target e := ih n (by omega)
    rw [render_of_get? _ hnode, hc.schemaOf_of_some helement, ← hitems]
    rfl
  | record hrecord hid =>
    rw [render_of_get? levels (hheld _ _ hid), Catalog.schemaOf_of_isRecord hrecord]
    rfl

/-! ## How deep nodes are -/

/-- A node is as many containers deep as any type that it stands for. -/
private theorem Represents.elementSteps_eq (h : a.Represents c held t id)
    (h' : a.Represents c held u id) : c.elementSteps t = c.elementSteps u := by
  revert id u
  -- on the elements of the first type; the node says whether the other type has elements too
  refine Catalog.chain_induction (motive := fun t => ∀ {u id}, a.Represents c held t id →
    a.Represents c held u id → c.elementSteps t = c.elementSteps u) ?_ ?_ (hc.element_ends t)
  · intro t hnone u id h h'
    cases helement : c.element? u with
    | none => rw [Catalog.elementSteps_of_none hnone, Catalog.elementSteps_of_none helement]
    | some e =>
      obtain ⟨items, hnode, _⟩ := h'.exists_items helement
      exact absurd hnode (h.get?_ne_array hheld hnone items)
  · intro t e _ helement ih u id h h'
    obtain ⟨items, hnode, hitems⟩ := h.exists_items helement
    cases helement' : c.element? u with
    | none => exact absurd hnode (h'.get?_ne_array hheld helement' items)
    | some e' =>
      obtain ⟨items', hnode', hitems'⟩ := h'.exists_items helement'
      rw [hnode] at hnode'
      cases hnode'
      rw [hc.elementSteps_of_some helement, hc.elementSteps_of_some helement', ih hitems hitems']

/-- Below a node there are as many others as there are containers to go through. -/
private theorem Represents.exists_below (h : a.Represents c held t id) :
    ∃ ids : List NodeId, ids.Nodup ∧ ids.length = c.elementSteps t + 1 ∧
      ∀ i ∈ ids, ∃ u, a.Represents c held u i ∧ c.elementSteps u ≤ c.elementSteps t := by
  revert id
  refine Catalog.chain_induction (motive := fun t => ∀ {id}, a.Represents c held t id →
    ∃ ids : List NodeId, ids.Nodup ∧ ids.length = c.elementSteps t + 1 ∧
      ∀ i ∈ ids, ∃ u, a.Represents c held u i ∧ c.elementSteps u ≤ c.elementSteps t)
    ?_ ?_ (hc.element_ends t)
  -- without elements, the node is the only one
  · intro t hnone id h
    refine ⟨[id], List.nodup_singleton id, ?_, fun i hi => ?_⟩
    · rw [Catalog.elementSteps_of_none hnone]
      rfl
    · rw [List.mem_singleton.mp hi]
      exact ⟨t, h, Nat.le_refl _⟩
  -- with elements, the nodes are those of the items and the node itself
  · intro t e _ helement ih id h
    have hsteps := hc.elementSteps_of_some helement
    obtain ⟨items, hnode, hitems⟩ := h.exists_items helement
    obtain ⟨ids, hnodup, hlength, hids⟩ := ih hitems
    refine ⟨id :: ids, List.nodup_cons.mpr ⟨fun hmem => ?_, hnodup⟩, ?_, fun i hi => ?_⟩
    · -- the node itself is deeper than all nodes below it
      obtain ⟨u, hu, hle⟩ := hids id hmem
      have heq := h.elementSteps_eq hheld hc hu
      omega
    · rw [List.length_cons, hlength, hsteps]
    · rcases List.mem_cons.mp hi with rfl | hi
      · exact ⟨t, h, Nat.le_refl _⟩
      · obtain ⟨u, hu, hle⟩ := hids i hi
        exact ⟨u, hu, by omega⟩

/-- These are different nodes, and none of them is an object. -/
private theorem Represents.exists_nodes (h : a.Represents c held t id) :
    ∃ ids : List NodeId, ids.Nodup ∧ ids.length = c.elementSteps t + 1 ∧
      ∀ i ∈ ids, ∃ n, a.get? i = some n ∧ ∀ name, n.body ≠ .object name := by
  obtain ⟨ids, hnodup, hlength, hids⟩ := h.exists_below hheld hc
  refine ⟨ids, hnodup, hlength, fun i hi => ?_⟩
  obtain ⟨u, hu, _⟩ := hids i hi
  exact hu.exists_node hheld

/-- A node is less deep than the arena has nodes. -/
theorem Represents.elementSteps_lt (h : a.Represents c held t id) : c.elementSteps t < a.size := by
  obtain ⟨ids, hnodup, hlength, hids⟩ := h.exists_nodes hheld hc
  -- there are more nodes than containers, and the arena has place for all of them
  have hle := length_le_size hnodup fun i hi => by
    obtain ⟨n, hn, _⟩ := hids i hi
    exact index_lt_of_get? hn
  omega

/-- It is less deep even without one of the nodes that is an object. -/
theorem Represents.succ_elementSteps_lt (h : a.Represents c held t id) {object : NodeId}
    {name : String} (hobject : a.body? object = some (.object name)) :
    c.elementSteps t + 1 < a.size := by
  obtain ⟨ids, hnodup, hlength, hids⟩ := h.exists_nodes hheld hc
  -- the object is none of these nodes, so it is one more
  have hnew : object ∉ ids := by
    intro hmem
    obtain ⟨n, hn, hne⟩ := hids object hmem
    rw [body?_of_get? hn, Option.some.injEq] at hobject
    exact hne name hobject
  have hle := length_le_size (List.nodup_cons.mpr ⟨hnew, hnodup⟩) fun i hi => by
    rcases List.mem_cons.mp hi with rfl | hi
    · exact index_lt_of_body? hobject
    · obtain ⟨n, hn, _⟩ := hids i hi
      exact index_lt_of_get? hn
  rw [List.length_cons] at hle
  omega

end Represents

end Arena

end Schemata
