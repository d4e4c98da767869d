import Schemata.Document.Render
import Schemata.Proofs.Forest
import Mathlib.Data.List.Pairwise

/-!
# Rendering without a bound

`Arena.render` goes down a given number of levels at most.  `Arena.Renders` is the same recursion
without a bound, and lists the nodes that it visits: it holds only if all of these are stored and
the recursion comes to an end.  If no node is below itself, that is always so, and the arena has
levels enough.  If no node is owned twice besides, no node is visited twice.

## Key results

- `Node.render_congr`: a node is written from what is written for the nodes inside of it
- `Layered.render_eq`: levels beyond those in use make no difference
- `exists_renders`: without cycles, rendering comes to an end
- `Renders.nodup`: a node is visited once
- `Renders.disjoint`: nodes of which neither is below the other share no visits
-/

namespace Schemata

/-- The nodes that are rendered inside of a node, in order. -/
def Node.inner (n : Node) : List NodeId :=
  match n.body with
  | .object _ => n.properties.entries.map (·.2)
  | .array items => items.toList
  | .scalar .. | .enumeration .. | .reference _ => []

/-- Only children are rendered inside of a node. -/
private theorem Node.inner_sublist_children (n : Node) : n.inner.Sublist n.children := by
  -- one case for each body, as a node is rendered
  rw [inner, children, items?]
  cases n.body with
  | object name => exact List.sublist_append_left _ _
  | array items => exact List.sublist_append_right _ _
  | scalar type format | enumeration name values | reference target => exact List.nil_sublist _

/-- What is written for a node depends on what is written for the nodes inside of it, and on no
other node. -/
theorem Node.render_congr {child child' : NodeId → Json} {n : Node}
    (h : ∀ i ∈ n.inner, child i = child' i) : n.render child = n.render child' := by
  rw [inner] at h
  rw [render, render]
  -- a body that holds nothing inside is written without looking at other nodes
  cases hbody : n.body with
  | object name =>
    simp only [hbody, List.forall_mem_map] at h ⊢
    rw [List.map_congr_left fun p hp => congrArg (Prod.mk p.1) (h p hp)]
  | array items =>
    cases items with
    | none => rfl
    | some items =>
      simp only [hbody, Option.toList_some, List.forall_mem_singleton] at h ⊢
      rw [h]
  | scalar type format => cases format <;> rfl
  | enumeration name values => rfl
  | reference target => cases target <;> rfl

namespace Arena

/-- What is written for a node when all nodes inside of it are rendered, whatever their number, and
the nodes that are visited for it, in order. -/
inductive Renders (a : Arena) : NodeId → Json → List NodeId → Prop where
  | node {id n} {child : NodeId → Json} {visited : NodeId → List NodeId}
      (hnode : a.get? id = some n)
      (hinner : ∀ i ∈ n.inner, Renders a i (child i) (visited i)) :
      Renders a id (.object (n.render child)) (id :: n.inner.flatMap visited)

variable {a : Arena} {id p q : NodeId} {n : Node} {j j' : Json} {v v' : List NodeId}

/-- What is rendered inside of a node is owned by it. -/
private theorem isChild_of_mem_inner (hn : a.get? id = some n) (hp : p ∈ n.inner) :
    a.IsChild p id := by
  rw [IsChild, childrenOf_of_get? hn]
  exact n.inner_sublist_children.subset hp

/-! ## Rendering comes to an end -/

/-- Below a path without repetition, rendering comes to an end within the levels that are left. -/
private theorem exists_renders_below
    (hin : ∀ {child parent}, a.IsChild child parent → child ∈ a.ids)
    (hacyclic : ∀ id, ¬ Relation.TransGen a.IsChild id id) {levels : Nat} {path : List NodeId}
    (hpath : (id :: path).Nodup) (hmem : id :: path ⊆ a.ids)
    (habove : ∀ p ∈ path, Relation.TransGen a.IsChild id p)
    (hlength : path.length + levels = a.size) : ∃ v, a.Renders id (a.render levels id) v := by
  -- on the levels that are left; the path grows by one place for each that is used
  induction levels generalizing id path with
  | zero =>
    -- a path through all places leaves none for this node
    have hle := hpath.length_le_of_subset hmem
    rw [ids, List.length_map, List.length_range, List.length_cons] at hle
    omega
  | succ levels ih =>
    obtain ⟨n, hn⟩ := exists_get?_of_lt (mem_ids_iff.mp (hmem List.mem_cons_self))
    have hinner : ∀ i, ∃ v, i ∈ n.inner → a.Renders i (a.render levels i) v := by
      intro i
      by_cases hi : i ∈ n.inner
      · -- the path goes on to this node, which is below all nodes of it
        have hchild := isChild_of_mem_inner hn hi
        have habove' : ∀ p ∈ id :: path, Relation.TransGen a.IsChild i p := by
          intro p hp
          rcases List.mem_cons.mp hp with rfl | hp
          · exact .single hchild
          · exact .head hchild (habove p hp)
        have hnew : i ∉ id :: path := fun h => hacyclic i (habove' i h)
        obtain ⟨v, hv⟩ := ih (List.nodup_cons.mpr ⟨hnew, hpath⟩)
          (List.cons_subset.mpr ⟨hin hchild, hmem⟩) habove'
          (by rw [List.length_cons]; omega)
        exact ⟨v, fun _ => hv⟩
      · exact ⟨[], fun h => absurd h hi⟩
    choose visited hvisited using hinner
    rw [render, hn]
    exact ⟨_, .node hn hvisited⟩

/-- If no node is below itself, rendering comes to an end, and there are as many nodes as levels are
needed. -/
theorem exists_renders (hin : ∀ {child parent}, a.IsChild child parent → child ∈ a.ids)
    (hacyclic : ∀ id, ¬ Relation.TransGen a.IsChild id id) (hid : id ∈ a.ids) :
    ∃ v, a.Renders id (a.render a.size id) v :=
  exists_renders_below hin hacyclic (List.nodup_singleton id)
    (List.cons_subset.mpr ⟨hid, List.nil_subset _⟩) (fun _ hp => nomatch hp) (Nat.zero_add _)

/-! ## Visits -/

namespace Renders

/-- All nodes that are visited are stored. -/
theorem mem_ids (h : a.Renders id j v) {i : NodeId} (hi : i ∈ v) : i ∈ a.ids := by
  -- on the rendering, from a node to those inside of it
  induction h with
  | node hnode _ ih =>
    rcases List.mem_cons.mp hi with rfl | hi
    · exact mem_ids_iff.mpr (index_lt_of_get? hnode)
    · obtain ⟨c, hc, hi⟩ := List.mem_flatMap.mp hi
      exact ih c hc hi

/-- Only nodes below a node are visited for it, and the node itself. -/
private theorem below_of_mem (h : a.Renders id j v) {i : NodeId} (hi : i ∈ v) :
    Relation.ReflTransGen a.IsChild i id := by
  induction h with
  | node hnode _ ih =>
    rcases List.mem_cons.mp hi with rfl | hi
    · exact .refl
    · obtain ⟨c, hc, hi⟩ := List.mem_flatMap.mp hi
      exact (ih c hc hi).tail (isChild_of_mem_inner hnode hc)

end Renders

section Owned

variable (hnodup : a.children.Nodup)

include hnodup

/-- A node has one owner. -/
theorem IsChild.unique {child : NodeId} (hp : a.IsChild child p) (hq : a.IsChild child q) :
    p = q := by
  by_contra hne
  have : Std.Symm (Function.onFun List.Disjoint a.childrenOf) := ⟨fun _ _ => List.disjoint_symm⟩
  exact (List.nodup_flatMap.mp hnodup).2.forall hp.mem_ids hq.mem_ids hne hp hq

/-- Nodes of which neither is below the other share no visits. -/
theorem Renders.disjoint (h : a.Renders p j v) (h' : a.Renders q j' v')
    (hpq : ¬ Relation.ReflTransGen a.IsChild p q) (hqp : ¬ Relation.ReflTransGen a.IsChild q p) :
    v.Disjoint v' := by
  intro i hi hi'
  have hunique : Relator.RightUnique a.IsChild := fun _ _ _ => IsChild.unique hnodup
  -- above a node there is one line of owners, and both are on it
  cases Relation.ReflTransGen.total_of_right_unique hunique (h.below_of_mem hi)
    (h'.below_of_mem hi') with
  | inl hbelow => exact hpq hbelow
  | inr hbelow => exact hqp hbelow

variable (hacyclic : ∀ id, ¬ Relation.TransGen a.IsChild id id)

include hacyclic

/-- Of two children of one node, neither is below the other. -/
private theorem not_below_of_siblings (hp : a.IsChild p id) (hq : a.IsChild q id) (hne : p ≠ q) :
    ¬ Relation.ReflTransGen a.IsChild p q := by
  intro hbelow
  rcases hbelow.cases_head with he | ⟨owner, howner, hrest⟩
  · exact hne he
  · -- the owner of the first is their common one, which would then be below itself
    obtain rfl := IsChild.unique hnodup hp howner
    exact hacyclic id (.tail' hrest hq)

/-- A node is visited once. -/
theorem Renders.nodup (h : a.Renders id j v) : v.Nodup := by
  induction h with
  | @node id n child visited hnode hinner ih =>
    have hchild : ∀ {c}, c ∈ n.inner → a.IsChild c id := fun hc => isChild_of_mem_inner hnode hc
    rw [List.nodup_cons, List.nodup_flatMap]
    refine ⟨fun hmem => ?_, ih, ?_⟩
    -- a node that is visited inside of itself would be below itself
    · obtain ⟨c, hc, hid⟩ := List.mem_flatMap.mp hmem
      exact hacyclic id (.tail' ((hinner c hc).below_of_mem hid) (hchild hc))
    · -- the places inside of the node are different siblings
      have hsiblings : n.inner.Nodup := by
        have howned := (List.nodup_flatMap.mp hnodup).1 id
          (mem_ids_iff.mpr (index_lt_of_get? hnode))
        rw [childrenOf_of_get? hnode] at howned
        exact howned.sublist n.inner_sublist_children
      refine hsiblings.imp_of_mem fun {c d} hc hd hne => ?_
      exact (hinner c hc).disjoint hnodup (hinner d hd)
        (not_below_of_siblings hnodup hacyclic (hchild hc) (hchild hd) hne)
        (not_below_of_siblings hnodup hacyclic (hchild hd) (hchild hc) hne.symm)

end Owned

/-! ## Levels that are left over -/

/-- The items of an array are stored before it, and are no object. -/
structure Layered (a : Arena) : Prop where
  items : ∀ {id items}, a.body? id = some (.array (some items)) →
    items.index < id.index ∧ ∀ name, a.body? items ≠ some (.object name)

/-- The nodes inside of a node that is no object are stored before it, and are no objects. -/
theorem Layered.of_mem_inner (h : a.Layered) (hn : a.get? id = some n)
    (hplain : ∀ name, n.body ≠ .object name) (hp : p ∈ n.inner) :
    p.index < id.index ∧ ∀ name, a.body? p ≠ some (.object name) := by
  rw [Node.inner] at hp
  split at hp
  · rename_i name hbody
    exact absurd hbody (hplain name)
  · rename_i items hbody
    exact h.items (by rw [body?_of_get? hn, hbody, Option.mem_toList.mp hp])
  all_goals cases hp

/-- A node that is no object is written with as many levels as nodes are stored before it, and more
levels make no difference. -/
theorem Layered.render_eq (h : a.Layered) (hplain : ∀ name, a.body? id ≠ some (.object name))
    {levels levels' : Nat} (hlevels : id.index < levels) (hlevels' : id.index < levels') :
    a.render levels id = a.render levels' id := by
  -- on the levels; a node inside needs one less, as it was stored before
  induction levels generalizing id levels' with
  | zero => exact absurd hlevels (Nat.not_lt_zero _)
  | succ levels ih =>
    obtain ⟨levels', rfl⟩ : ∃ n, levels' = n + 1 := ⟨levels' - 1, by omega⟩
    cases hn : a.get? id with
    | none => rw [render, render, hn]
    | some n =>
      rw [render, render, hn]
      have hbody : ∀ name, n.body ≠ .object name :=
        fun name he => hplain name (by rw [body?_of_get? hn, he])
      -- what is inside was stored before, so a level less is enough for it
      have hinner : ∀ i ∈ n.inner, a.render levels i = a.render levels' i := by
        intro i hi
        obtain ⟨hlt, hobject⟩ := h.of_mem_inner hn hbody hi
        exact ih hobject (by omega) (by omega)
      exact congrArg Json.object (Node.render_congr hinner)

end Arena

end Schemata
