import Schemata.Proofs.Arena
import Schemata.Proofs.OrderedMap
import Mathlib.Logic.Relation

/-!
# Ownership of nodes

A node owns its children: the nodes of its properties and its items.  In a forest every node is an
object, or the child of exactly one node, or loose.  Loose nodes are those that nobody owns yet,
such as the node that a walk has just come to, and in the end the nodes of roots.  An array is
stored after its items and an object before its properties, so the places alone do not show that no
node is below itself; but objects are nobody's children.

## Key results

- `Forest.push` / `Forest.addProperty` / `Forest.retarget`: how a forest grows
- `Forest.nodup_children`: no node is owned twice
- `Forest.acyclic`: no node is below itself
-/

namespace Schemata

/-- The nodes that a node owns: those of its properties, in order, and its items. -/
def Node.children (n : Node) : List NodeId := n.properties.entries.map (·.2) ++ n.items?.toList

/-- A property under a new name is a child more. -/
private theorem Node.children_addProperty {n : Node} {name : String} (child : NodeId)
    (h : name ∉ n.properties.names) :
    (n.addProperty name child).children.Perm (n.children ++ [child]) := by
  have hentries := OrderedMap.entries_insert child h
  -- the items of the node come last in both lists
  simp only [Node.children, Node.addProperty, hentries, Node.items?, List.map_append, List.map_cons,
    List.map_nil, List.append_assoc]
  exact List.Perm.append_left _ List.perm_append_comm

namespace Arena

/-- The nodes that the node at a place owns. -/
def childrenOf (a : Arena) (id : NodeId) : List NodeId := ((a.get? id).map (·.children)).getD []

/-- All nodes that are owned, each as often as it is owned. -/
def children (a : Arena) : List NodeId := a.ids.flatMap a.childrenOf

/-- A node is owned by another. -/
def IsChild (a : Arena) (child parent : NodeId) : Prop := child ∈ a.childrenOf parent

/-- Whether the node at a place is an object. -/
def isObject (a : Arena) (id : NodeId) : Bool :=
  match a.body? id with
  | some (.object _) => true
  | _ => false

/-- Those of some places that hold no object. -/
def plain (a : Arena) (ids : List NodeId) : List NodeId := ids.filter fun id => !a.isObject id

/-- Every node is an object, the child of exactly one node, or loose, and only one of these.  Only
objects have properties, and items are stored before their array. -/
structure Forest (a : Arena) (loose : List NodeId) : Prop where
  owned : (a.children ++ (a.objects ++ loose)).Perm a.ids
  properties : ∀ {id n}, a.get? id = some n → (∀ name, n.body ≠ .object name) →
    n.properties = .empty
  items_lt : ∀ {id items}, a.body? id = some (.array (some items)) → items.index < id.index

variable {a a' : Arena} {id object child parent items : NodeId} {n : Node}
  {loose loose' ids : List NodeId}

/-! ## Objects -/

/-- A place holds an object exactly if the node there is one. -/
theorem isObject_iff : a.isObject id = true ↔ ∃ name, a.body? id = some (.object name) := by
  rw [isObject]
  constructor
  · intro h
    split at h
    · exact ⟨_, ‹_›⟩
    · cases h
  · rintro ⟨name, h⟩
    rw [h]

/-- Another node is no object. -/
theorem isObject_eq_false (h : a.get? id = some n) (hbody : ∀ name, n.body ≠ .object name) :
    a.isObject id = false := by
  rw [Bool.eq_false_iff, Ne, isObject_iff]
  rintro ⟨name, hname⟩
  rw [body?_of_get? h, Option.some.injEq] at hname
  exact hbody name hname

/-- Whether a place holds an object depends on what the node is. -/
theorem isObject_congr (h : a'.body? id = a.body? id) : a'.isObject id = a.isObject id := by
  rw [isObject, h, isObject]

/-- The objects are the places that hold one. -/
private theorem objects_eq (a : Arena) : a.objects = a.ids.filter a.isObject := rfl

/-- The same places hold objects in two arenas, if they do so one by one. -/
private theorem objects_congr (hids : a'.ids = a.ids)
    (h : ∀ id ∈ a.ids, a'.isObject id = a.isObject id) : a'.objects = a.objects := by
  rw [objects_eq, hids, List.filter_congr h, objects_eq]

/-- A place with an object is dropped. -/
theorem plain_of_object {name : String} (h : a.body? id = some (.object name)) :
    a.plain [id] = [] := by
  have hobject : a.isObject id = true := isObject_iff.mpr ⟨name, h⟩
  simp [plain, hobject]

/-- Any other place is kept. -/
theorem plain_of_eq_false (h : a.isObject id = false) : a.plain [id] = [id] := by
  simp [plain, h]

/-! ## Children after a change -/

/-- The children of a place are those of its node. -/
theorem childrenOf_of_get? (h : a.get? id = some n) : a.childrenOf id = n.children := by
  rw [childrenOf, h]
  rfl

/-- The children of a place depend on the node there. -/
private theorem childrenOf_congr (h : a'.get? id = a.get? id) :
    a'.childrenOf id = a.childrenOf id := by
  rw [childrenOf, h, childrenOf]

/-- A place that owns nodes is in use. -/
theorem IsChild.mem_ids (h : a.IsChild child parent) : parent ∈ a.ids := by
  rw [IsChild, childrenOf] at h
  cases hn : a.get? parent with
  | none =>
    rw [hn] at h
    cases h
  | some n => exact mem_ids_iff.mpr (index_lt_of_get? hn)

/-- What a node owns is owned. -/
theorem IsChild.mem_children (h : a.IsChild child parent) : child ∈ a.children :=
  List.mem_flatMap.mpr ⟨parent, h.mem_ids, h⟩

/-- A node that is stored uses one place more. -/
private theorem ids_push (a : Arena) (n : Node) : (a.push n).ids = a.ids ++ [a.next] := by
  rw [ids, size_push, List.range_succ, List.map_append]
  rfl

/-- A node that is changed uses no place more. -/
private theorem ids_modify (a : Arena) (id : NodeId) (f : Node → Node) :
    (a.modify id f).ids = a.ids := by
  rw [ids, size_modify, ids]

/-- A node that is stored brings its children. -/
private theorem children_push (a : Arena) (n : Node) :
    (a.push n).children = a.children ++ n.children := by
  -- the nodes that are there keep their children
  have hold : a.ids.flatMap (a.push n).childrenOf = a.ids.flatMap a.childrenOf :=
    List.flatMap_congr fun id hid => childrenOf_congr (get?_push_of_lt n (mem_ids_iff.mp hid))
  rw [children, ids_push, List.flatMap_append, hold, List.flatMap_singleton,
    childrenOf_of_get? (get?_push_next a n), children]

/-- A node that is stored may be an object more. -/
private theorem objects_push (a : Arena) (n : Node) :
    (a.push n).objects = a.objects ++ [a.next].filter (a.push n).isObject := by
  have hold : a.ids.filter (a.push n).isObject = a.ids.filter a.isObject :=
    List.filter_congr fun id hid => isObject_congr (by
      rw [body?, get?_push_of_lt n (mem_ids_iff.mp hid), body?])
  rw [objects_eq, ids_push, List.filter_append, hold, objects_eq]

/-- When the children of one node change, so do all children. -/
private theorem children_modify {f : Node → Node} {more : List NodeId} (hn : a.get? id = some n)
    (hmore : (f n).children.Perm (n.children ++ more)) :
    (a.modify id f).children.Perm (a.children ++ more) := by
  have hself : (a.modify id f).childrenOf id = (f n).children := by
    rw [childrenOf, get?_modify, if_pos rfl, hn]
    rfl
  have hother : ∀ i, i ≠ id → (a.modify id f).childrenOf i = a.childrenOf i :=
    fun i hi => childrenOf_congr (by rw [get?_modify, if_neg fun he => hi he.symm])
  -- the place that changes comes once among all places
  obtain ⟨front, back, hids⟩ := List.append_of_mem (mem_ids_iff.mpr (index_lt_of_get? hn))
  have hnodup := a.nodup_ids
  rw [hids, List.nodup_middle, List.nodup_cons, List.mem_append, not_or] at hnodup
  -- in front of the place and behind it nothing changes
  have hfront : front.flatMap (a.modify id f).childrenOf = front.flatMap a.childrenOf :=
    List.flatMap_congr fun i hi => hother i fun he => hnodup.1.1 (he ▸ hi)
  have hback : back.flatMap (a.modify id f).childrenOf = back.flatMap a.childrenOf :=
    List.flatMap_congr fun i hi => hother i fun he => hnodup.1.2 (he ▸ hi)
  rw [children, children, ids_modify, hids, List.flatMap_append, List.flatMap_append,
    List.flatMap_cons, List.flatMap_cons, hfront, hback, hself, childrenOf_of_get? hn]
  rw [List.append_assoc]
  -- the new children come in the middle, and may be moved to the end
  refine List.Perm.append_left _ ((hmore.append_right _).trans ?_)
  rw [List.append_assoc, List.append_assoc]
  exact List.Perm.append_left _ List.perm_append_comm

/-! ## What is known of a forest -/

namespace Forest

/-- No place comes twice among children, objects and loose nodes. -/
private theorem nodup (h : a.Forest loose) : (a.children ++ (a.objects ++ loose)).Nodup :=
  h.owned.nodup_iff.mpr a.nodup_ids

/-- No node is owned by two nodes, nor twice by one. -/
theorem nodup_children (h : a.Forest loose) : a.children.Nodup := h.nodup.of_append_left

/-- What is owned is stored. -/
theorem mem_ids_of_mem_children (h : a.Forest loose) (hid : id ∈ a.children) : id ∈ a.ids :=
  h.owned.subset (List.mem_append_left _ hid)

/-- What is loose is stored. -/
private theorem mem_ids_of_mem_loose (h : a.Forest loose) (hid : id ∈ loose) : id ∈ a.ids :=
  h.owned.subset (List.mem_append_right _ (List.mem_append_right _ hid))

/-- A node is owned, an object or loose. -/
theorem mem_or (h : a.Forest loose) (hid : id ∈ a.ids) :
    id ∈ a.children ∨ id ∈ a.objects ∨ id ∈ loose := by
  rw [← List.mem_append, ← List.mem_append]
  exact h.owned.symm.subset hid

/-- No object is owned. -/
theorem isObject_of_mem_children (h : a.Forest loose) (hid : id ∈ a.children) :
    a.isObject id = false := by
  rw [Bool.eq_false_iff, Ne, isObject_iff, ← mem_objects_iff]
  exact fun hobject =>
    List.disjoint_of_nodup_append h.nodup hid (List.mem_append_left _ hobject)

/-- If those of some places that hold no object are loose, all of the places are in use. -/
theorem index_lt_of_plain (h : a.Forest (a.plain ids)) (hid : id ∈ ids) : id.index < a.size := by
  -- an object is stored since it is one, and any other node since it is loose
  cases hobject : a.isObject id with
  | true =>
    obtain ⟨name, hbody⟩ := isObject_iff.mp hobject
    exact index_lt_of_body? hbody
  | false =>
    have hloose : id ∈ a.plain ids := List.mem_filter.mpr ⟨hid, by rw [hobject]; rfl⟩
    exact mem_ids_iff.mp (h.mem_ids_of_mem_loose hloose)

/-- It does not matter in which order the loose nodes are listed. -/
theorem of_perm (h : a.Forest loose) (hperm : loose.Perm loose') : a.Forest loose' :=
  { h with owned := ((hperm.symm.append_left _).append_left _).trans h.owned }

/-- The children of a node that is no object are its items. -/
private theorem children_eq_items (h : a.Forest loose) (hn : a.get? id = some n)
    (hbody : ∀ name, n.body ≠ .object name) : n.children = n.items?.toList := by
  rw [Node.children, h.properties hn hbody]
  rfl

/-- A node is no object if it is owned, and it was stored before its owner unless that is an
object. -/
private theorem index_lt_of_isChild (h : a.Forest loose) (hchild : a.IsChild child parent) :
    a.isObject child = false ∧ (a.isObject parent = true ∨ child.index < parent.index) := by
  refine ⟨h.isObject_of_mem_children hchild.mem_children, ?_⟩
  cases hparent : a.isObject parent with
  | true => exact .inl rfl
  -- an owner that is no object owns its items only, and these came before it
  | false =>
    obtain ⟨n, hn⟩ := exists_get?_of_lt (mem_ids_iff.mp hchild.mem_ids)
    have hbody : ∀ name, n.body ≠ .object name := by
      intro name hname
      rw [isObject_iff.mpr ⟨name, by rw [body?_of_get? hn, hname]⟩] at hparent
      cases hparent
    rw [IsChild, childrenOf_of_get? hn, h.children_eq_items hn hbody, Option.mem_toList,
      Node.items?] at hchild
    split at hchild
    · rename_i items hitems
      refine .inr (h.items_lt ?_)
      rw [body?_of_get? hn, hitems, hchild]
    · cases hchild

/-- A node is no object if it is below another, and it was stored before that one unless that is an
object. -/
private theorem index_lt_of_below (h : a.Forest loose)
    (hbelow : Relation.TransGen a.IsChild child parent) :
    a.isObject child = false ∧ (a.isObject parent = true ∨ child.index < parent.index) := by
  -- on the path downwards, from its last step
  induction hbelow with
  | single hchild => exact h.index_lt_of_isChild hchild
  | @tail middle parent _ hchild ih =>
    -- the node in the middle is owned, so it is no object
    obtain ⟨hplain, hparent⟩ := h.index_lt_of_isChild hchild
    obtain ⟨hchild, hmiddle⟩ := ih
    rw [hplain] at hmiddle
    refine ⟨hchild, hparent.imp_right fun hlt => ?_⟩
    exact Nat.lt_trans (hmiddle.resolve_left fun he => nomatch he) hlt

/-- No node is below itself. -/
theorem acyclic (h : a.Forest loose) (id : NodeId) : ¬ Relation.TransGen a.IsChild id id := by
  -- a node below itself would be an object and none, or come before itself
  intro hbelow
  obtain ⟨hplain, hself⟩ := h.index_lt_of_below hbelow
  rw [hplain] at hself
  exact Nat.lt_irrefl _ (hself.resolve_left fun he => nomatch he)

/-! ## How a forest grows -/

/-- Nothing is a forest. -/
theorem empty : Forest {} [] where
  owned := List.Perm.refl []
  properties h := by simp [Arena.get?] at h
  items_lt h := by simp [body?, Arena.get?] at h

/-- A node that is stored without properties is loose, if it is no object.  Its items are loose no
longer. -/
theorem push (h : a.Forest (n.children ++ loose)) (hproperties : n.properties = .empty) :
    (a.push n).Forest ((a.push n).plain [a.next] ++ loose) := by
  constructor
  case owned =>
    -- the new place is among the objects or among the loose nodes
    have hnext : ([a.next].filter (a.push n).isObject ++ (a.push n).plain [a.next]).Perm [a.next] :=
      List.filter_append_perm _ _
    rw [children_push, objects_push, ids_push]
    refine List.Perm.trans ?_ (h.owned.append hnext)
    -- both sides list the same places, each as often
    rw [List.perm_iff_count]
    intro i
    simp only [List.count_append]
    omega
  case properties =>
    -- the new node has no properties, and the others are as before
    intro id m hm hplain
    rw [get?_push] at hm
    split at hm
    · rw [← Option.some.inj hm, hproperties]
    · exact h.properties hm hplain
  case items_lt =>
    intro id items hid
    rw [body?, get?_push] at hid
    split at hid
    · -- the items of the new node are loose, so they are stored
      rename_i he
      have hbody : n.body = .array (some items) := Option.some.inj hid
      have hitems : items ∈ n.children := by
        rw [Node.children, Node.items?, hbody]
        exact List.mem_append_right _ (List.mem_singleton_self items)
      rw [he]
      exact mem_ids_iff.mp (h.mem_ids_of_mem_loose (List.mem_append_left _ hitems))
    · exact h.items_lt hid

/-- A property of an object owns a node that was loose. -/
theorem addProperty {name : String} (h : a.Forest (child :: loose))
    (hn : a.get? object = some n) (hobject : a.isObject object = true)
    (hname : name ∉ n.properties.names) :
    (a.modify object (·.addProperty name child)).Forest loose := by
  have hbody : ∀ id, (a.modify object (·.addProperty name child)).body? id = a.body? id :=
    fun id => body?_modify_addProperty a object id name child
  constructor
  case owned =>
    -- the child that was loose is now among the children
    have hchildren := children_modify (f := (·.addProperty name child)) hn
      (Node.children_addProperty child hname)
    rw [objects_congr (ids_modify a object _) fun id _ => isObject_congr (hbody id), ids_modify]
    refine List.Perm.trans ((hchildren.append_right _).trans ?_) h.owned
    rw [List.perm_iff_count]
    intro i
    simp only [List.count_append, List.count_cons, List.count_nil]
    omega
  case properties =>
    -- the object itself takes properties, and no other node changes
    intro id m hm hplain
    have hne : object ≠ id := by
      rintro rfl
      have hfalse := isObject_eq_false hm hplain
      rw [isObject_congr (hbody object), hobject] at hfalse
      cases hfalse
    rw [get?_modify, if_neg hne] at hm
    exact h.properties hm hplain
  case items_lt =>
    intro id items hid
    rw [hbody] at hid
    exact h.items_lt hid

/-- References may be given targets. -/
theorem retarget (h : a.Forest loose) (hids : a'.ids = a.ids)
    (hget : ∀ id, a'.get? id = a.get? id ∨ ∃ target target',
      a.body? id = some (.reference target) ∧ a'.get? id = some (.reference target')) :
    a'.Forest loose := by
  have hkept : ∀ id, a'.childrenOf id = a.childrenOf id ∧ a'.isObject id = a.isObject id := by
    intro id
    rcases hget id with hsame | ⟨target, target', hold, hnew⟩
    · exact ⟨childrenOf_congr hsame, isObject_congr (by rw [body?, hsame, body?])⟩
    · -- neither reference owns anything
      obtain ⟨n, hn, hbody⟩ := exists_get?_of_body? hold
      have hplain : ∀ name, n.body ≠ .object name := fun name he => by rw [hbody] at he; cases he
      have hplain' : ∀ name, Body.reference (some target') ≠ .object name := by
        intro name he
        cases he
      have hitems : n.items? = none := by simp only [Node.items?, hbody]
      rw [childrenOf_of_get? hnew, childrenOf_of_get? hn, h.children_eq_items hn hplain, hitems,
        isObject_eq_false hn hplain, isObject_eq_false hnew hplain']
      exact ⟨rfl, rfl⟩
  constructor
  -- children, objects and places are the same lists
  case owned =>
    rw [children, objects_congr hids fun id _ => (hkept id).2, hids,
      List.flatMap_congr fun id _ => (hkept id).1]
    exact h.owned
  case properties =>
    intro id n hn hplain
    rcases hget id with hsame | ⟨target, target', _, hnew⟩
    · rw [hsame] at hn
      exact h.properties hn hplain
    · rw [hnew, Option.some.injEq] at hn
      rw [← hn]
      rfl
  case items_lt =>
    intro id items hid
    rcases hget id with hsame | ⟨target, target', _, hnew⟩
    · rw [body?, hsame] at hid
      exact h.items_lt hid
    · rw [body?_of_get? hnew] at hid
      cases hid

end Forest

end Arena

end Schemata
