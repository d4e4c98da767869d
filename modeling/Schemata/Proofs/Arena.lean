import Schemata.Arena
import Mathlib.Data.List.Nodup

/-!
# Reading arenas

Most of what is said of stored nodes is said of their bodies, which do not change when properties
are added.

## Key results

- `get?_push_next` / `get?_push_of_lt`: the nodes after one more is stored
- `body?_modify_addProperty`: a property more does not change what a node is
-/

namespace Schemata

namespace Arena

variable {a : Arena} {id : NodeId} {n : Node}

/-- What the node at a place is. -/
def body? (a : Arena) (id : NodeId) : Option Body := (a.get? id).map (·.body)

/-- A node that is stored has a place in use. -/
theorem index_lt_of_get? (h : a.get? id = some n) : id.index < a.size :=
  (Array.getElem?_eq_some_iff.mp h).1

/-- There is a node at every place in use. -/
theorem exists_get?_of_lt (h : id.index < a.size) : ∃ n, a.get? id = some n :=
  ⟨_, Array.getElem?_eq_getElem h⟩

theorem body?_of_get? (h : a.get? id = some n) : a.body? id = some n.body := by
  rw [body?, h]
  rfl

theorem exists_get?_of_body? {b : Body} (h : a.body? id = some b) :
    ∃ n, a.get? id = some n ∧ n.body = b := Option.map_eq_some_iff.mp h

theorem index_lt_of_body? {b : Body} (h : a.body? id = some b) : id.index < a.size := by
  obtain ⟨n, hn, _⟩ := exists_get?_of_body? h
  exact index_lt_of_get? hn

/-- A node that is added stands at the next place. -/
theorem get?_push_next (a : Arena) (n : Node) : (a.push n).get? a.next = some n := by
  rw [get?_push, if_pos rfl]

/-- A place in use is not the next one. -/
theorem ne_next_of_lt (h : id.index < a.size) : id ≠ a.next := by
  rintro rfl
  exact Nat.lt_irrefl _ h

/-- Adding a node leaves those that are there. -/
theorem get?_push_of_lt (n : Node) (h : id.index < a.size) : (a.push n).get? id = a.get? id := by
  rw [get?_push, if_neg (ne_next_of_lt h)]

/-- A property more does not change what a node is. -/
theorem body?_modify_addProperty (a : Arena) (object id : NodeId) (name : String) (child : NodeId) :
    (a.modify object (·.addProperty name child)).body? id = a.body? id := by
  rw [body?, get?_modify, body?]
  -- adding a property keeps the body of the node, and no other node changes
  split
  · rw [Option.map_map]
    rfl
  · rfl

/-! ## Places by the kind of their nodes -/

/-- All places in use. -/
def ids (a : Arena) : List NodeId := (List.range a.size).map NodeId.mk

/-- The places of the references without a target. -/
def unresolved (a : Arena) : List NodeId :=
  a.ids.filter fun id => a.body? id = some (.reference none)

/-- The places of the objects. -/
def objects (a : Arena) : List NodeId :=
  a.ids.filter fun id =>
    match a.body? id with
    | some (.object _) => true
    | _ => false

/-- A place is listed exactly if it is in use. -/
theorem mem_ids_iff : id ∈ a.ids ↔ id.index < a.size := by
  rw [ids, List.mem_map]
  constructor
  · rintro ⟨i, hi, rfl⟩
    exact List.mem_range.mp hi
  · intro h
    exact ⟨id.index, List.mem_range.mpr h, rfl⟩

theorem nodup_ids (a : Arena) : a.ids.Nodup :=
  List.nodup_range.map fun _ _ h => congrArg NodeId.index h

theorem nodup_unresolved (a : Arena) : a.unresolved.Nodup := a.nodup_ids.filter _

theorem nodup_objects (a : Arena) : a.objects.Nodup := a.nodup_ids.filter _

/-- The references without a target are found by what their nodes are. -/
theorem mem_unresolved_iff : id ∈ a.unresolved ↔ a.body? id = some (.reference none) := by
  rw [unresolved, List.mem_filter, decide_eq_true_eq, mem_ids_iff]
  exact ⟨fun h => h.2, fun h => ⟨index_lt_of_body? h, h⟩⟩

/-- The objects are found by what their nodes are. -/
theorem mem_objects_iff : id ∈ a.objects ↔ ∃ name, a.body? id = some (.object name) := by
  rw [objects, List.mem_filter, mem_ids_iff]
  constructor
  -- the match that sorts out the objects is taken apart, to get at the name
  · rintro ⟨_, h⟩
    split at h
    · exact ⟨_, ‹_›⟩
    · cases h
  · rintro ⟨name, h⟩
    exact ⟨index_lt_of_body? h, by rw [h]⟩

end Arena

end Schemata
