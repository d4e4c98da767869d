import Schemata.Fixup
import Schemata.Proofs.Arena

/-!
# What fix-ups change

Running the fix-ups that wait for a type turns the nodes that they name into references, and leaves
all other nodes alone.

## Key results

- `get?_runAll_of_notMem`: a node that no fix-up names stays as it is
- `get?_runAll_naming`: a node that a fix-up names becomes a reference to the finished node
-/

namespace Schemata

namespace Fixup

variable {f : Fixup} {fs : List Fixup} {finished id : NodeId} {a : Arena}

/-- The fix-up that turns a placeholder into a reference to the node that is finished. -/
def naming (refPrefix : String) (id : NodeId) : Fixup :=
  { node := some id, target := .named refPrefix }

/-- Fix-ups are run one after the other. -/
theorem runAll_cons : runAll (f :: fs) finished a = runAll fs finished (f.run finished a) := rfl

/-- Running a fix-up adds no node. -/
@[simp] theorem size_run : (f.run finished a).size = a.size := by
  rw [run]
  split
  · exact Arena.size_modify _ _ _
  · rfl

/-- Running some fix-ups adds no node. -/
@[simp] theorem size_runAll : (runAll fs finished a).size = a.size := by
  induction fs generalizing a with
  | nil => rfl
  | cons f rest ih => rw [runAll_cons, ih, size_run]

/-- A fix-up changes no other node than its own. -/
private theorem get?_run_of_ne (h : f.node ≠ some id) : (f.run finished a).get? id = a.get? id := by
  rw [run]
  split
  · rename_i own target hown htarget
    have hne : own ≠ id := fun e => h (e ▸ hown)
    rw [Arena.get?_modify, if_neg hne]
  · rfl

/-- A node that no fix-up names stays as it is. -/
theorem get?_runAll_of_notMem (h : ∀ f ∈ fs, f.node ≠ some id) :
    (runAll fs finished a).get? id = a.get? id := by
  -- on the fix-ups, each of which leaves the node alone
  induction fs generalizing a with
  | nil => rfl
  | cons f rest ih =>
    have hrest : ∀ g ∈ rest, g.node ≠ some id := fun g hg => h g (List.mem_cons_of_mem f hg)
    rw [runAll_cons, ih hrest, get?_run_of_ne (h f List.mem_cons_self)]

/-- A node that a fix-up names becomes a reference to the finished node. -/
theorem get?_runAll_naming {ids : List NodeId} {refPrefix target : String} {node : Node}
    (hfinished : a.get? finished = some node) (htarget : node.refTarget? refPrefix = some target)
    (hnot : finished ∉ ids) (hid : id ∈ ids) (hlt : id.index < a.size) :
    (runAll (ids.map (naming refPrefix)) finished a).get? id = some (.reference target) := by
  -- on the placeholders, which are changed one after the other
  induction ids generalizing a with
  | nil => exact nomatch hid
  | cons i rest ih =>
    have hrun : (naming refPrefix i).run finished a = a.modify i (·.toReference target) := by
      simp only [run, target?, naming, hfinished, Option.bind_some, htarget]
    have hne : i ≠ finished := fun e => hnot (e ▸ List.mem_cons_self)
    rw [List.map_cons, runAll_cons, hrun]
    by_cases hmem : id ∈ rest
    · -- a later fix-up names the node again, and the finished node has not changed
      refine ih ?_ (fun h => hnot (List.mem_cons_of_mem i h)) hmem ?_
      · rw [Arena.get?_modify, if_neg hne, hfinished]
      · rw [Arena.size_modify]; exact hlt
    · -- the node is named here for the last time
      obtain rfl : id = i := by
        cases List.mem_cons.mp hid with
        | inl h => exact h
        | inr h => exact absurd h hmem
      obtain ⟨n, hn⟩ := Arena.exists_get?_of_lt hlt
      rw [get?_runAll_of_notMem, Arena.get?_modify, if_pos rfl, hn]
      · rfl
      · intro f hf
        obtain ⟨j, hj, rfl⟩ := List.mem_map.mp hf
        exact fun e => hmem (Option.some.inj e ▸ hj)

end Fixup

end Schemata
