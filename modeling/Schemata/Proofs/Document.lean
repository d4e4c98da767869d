import Schemata.Document.Basic
import Schemata.Proofs.Arena

/-!
# Resolving the nodes of a document

A node that is no reference stands for itself.  A reference whose target is a name after the common
beginning stands for the component with that name.

## Key results

- `afterStart?_append`: the common beginning of a target is taken off again
- `resolve_of_body` / `resolve_of_target`: what a node stands for
-/

namespace Schemata.Document

/-- What was put behind a beginning is what follows it. -/
theorem afterStart?_append (start s : String) : afterStart? start (start ++ s) = some s := by
  have hprefix : start.toList.isPrefixOf (start ++ s).toList = true := by
    rw [String.toList_append, List.isPrefixOf_iff_prefix]
    exact List.prefix_append _ _
  rw [afterStart?, if_pos hprefix, String.toList_append, ← String.length_toList, List.drop_left,
    String.ofList_toList]

/-- A node that is no reference stands for itself. -/
theorem resolve_of_body (doc : Document) {id : NodeId} {body : Body}
    (h : doc.arena.body? id = some body)
    (hbody : ∀ target, body ≠ .reference target) : doc.resolve id = some id := by
  obtain ⟨n, hn, rfl⟩ := Arena.exists_get?_of_body? h
  -- the node does not count as a reference, whatever its body is
  have hplain : n.isReference = false := by
    rw [Node.isReference]
    split
    · rename_i target htarget
      exact absurd htarget (hbody target)
    · rfl
  simp [resolve, hn, hplain]

/-- A reference to a name stands for the component with that name. -/
theorem resolve_of_target (doc : Document) {id : NodeId} {name : String}
    (h : doc.arena.body? id = some (.reference (some (doc.refPrefix ++ name)))) :
    doc.resolve id = doc.component? name := by
  obtain ⟨n, hn, hbody⟩ := Arena.exists_get?_of_body? h
  simp [resolve, hn, Node.isReference, Node.target?, hbody, afterStart?_append]

end Schemata.Document
