import Schemata.Proofs.Session.Components
import Schemata.Proofs.Session.Lockstep
import Schemata.Proofs.Walk.Reprefixed

/-!
# Compiling with another beginning of targets

Two compilations whose targets begin with different texts go in lockstep, so they fail with the same
error or end with documents that differ in these texts only.  Resolving takes the text off again,
and then looks the same name up in the same components.

## Key results

- `Reprefixed.resolve_eq`: what a node stands for does not depend on the text
- `compileMany_of_refPrefix`: the outcome with another beginning of targets
-/

namespace Schemata

variable {p q : String}

/-! ## Documents -/

/-- Documents that differ in the beginning of targets only. -/
structure Document.Reprefixed (p q : String) (doc doc' : Document) : Prop where
  refPrefix : doc.refPrefix = p
  refPrefix' : doc'.refPrefix = q
  size : doc.arena.size = doc'.arena.size
  roots : doc.roots = doc'.roots
  components : doc.components = doc'.components
  completed : doc.completed = doc'.completed
  /-- A node is no reference and is the same, or is a reference to the same name. -/
  node : ∀ id ∈ doc.arena.ids,
    (∃ n, doc.arena.get? id = some n ∧ doc'.arena.get? id = some n ∧ n.isReference = false) ∨
    ∃ name properties, doc.arena.get? id = some ⟨.reference (some (p ++ name)), properties⟩ ∧
      doc'.arena.get? id = some ⟨.reference (some (q ++ name)), properties⟩

namespace Document.Reprefixed

variable {doc doc' : Document}

/-- A component is found under the same name. -/
private theorem component?_eq (h : doc.Reprefixed p q doc') (name : String) :
    doc.component? name = doc'.component? name := by
  rw [component?, component?, h.components]

/-- A node stands for the same node. -/
theorem resolve_eq (h : doc.Reprefixed p q doc') (id : NodeId) :
    doc.resolve id = doc'.resolve id := by
  -- on whether there is such a node, and then on whether it is a reference
  by_cases hid : id ∈ doc.arena.ids
  · rcases h.node id hid with ⟨n, hn, hn', hplain⟩ | ⟨name, properties, hn, hn'⟩
    -- no reference resolves to anything but itself
    · simp [resolve, hn, hn', hplain]
    -- a reference is looked up by its name, once the text in front is taken off
    · have hbody := Arena.body?_of_get? hn
      have hbody' := Arena.body?_of_get? hn'
      rw [← h.refPrefix] at hbody
      rw [← h.refPrefix'] at hbody'
      rw [resolve_of_target doc hbody, resolve_of_target doc' hbody', h.component?_eq]
  · -- there is no such node in either arena
    have hnone : ∀ a : Arena, ¬ id.index < a.size → a.get? id = none := fun a hlt =>
      Array.getElem?_eq_none (Nat.le_of_not_lt hlt)
    rw [Arena.mem_ids_iff] at hid
    rw [resolve, resolve, hnone _ hid, hnone _ (h.size ▸ hid)]
    rfl

end Document.Reprefixed

namespace Session

variable {s s' : Session} {done : List TypeId}

/-! ## Sessions -/

/-- If no fix-up is queued, there is no reference without a target. -/
private theorem Sound.body?_ne_of_queued (h : s.Sound done) (hqueued : s.build.progress.queued = [])
    (id : NodeId) : s.build.arena.body? id ≠ some (.reference none) := by
  intro hbody
  obtain ⟨t, ht⟩ := h.build.waiting.queued hbody
  rw [hqueued] at ht
  cases ht

/-- Sessions in lockstep on one catalog end with documents that differ in the beginning of targets
only, if no fix-up is queued. -/
private theorem Lockstep.document {R : TypeId → TypeId → Prop}
    (h : Lockstep R (Build.Reprefixed p q) s s') (hs : s.Sound done)
    (hqueued : s.build.progress.queued = []) (hcatalog : s.catalog = s'.catalog)
    (hp : s.compiler.options.refPrefix = p) (hq : s'.compiler.options.refPrefix = q) :
    s.document.Reprefixed p q s'.document where
  refPrefix := hp
  refPrefix' := hq
  size := h.build.arena.size
  roots := h.roots
  components := by
    show s.build.progress.completed.map s.componentOf =
      s'.build.progress.completed.map s'.componentOf
    -- the completed types and their nodes are the same, and so are the names of these nodes
    rw [← h.build.completed_eq]
    refine List.map_congr_left fun e _ => ?_
    simp only [componentOf, h.build.arena.name?_eq e.2, hcatalog]
  completed := h.build.completed_eq
  node id hid := by
    have hnode := h.build.arena.node id
    have hlt : id.index < s.build.arena.size := Arena.mem_ids_iff.mp hid
    obtain ⟨n, hn⟩ := Arena.exists_get?_of_lt hlt
    rw [hn] at hnode
    cases hn' : s'.build.arena.get? id with
    | none =>
      rw [hn'] at hnode
      cases hnode
    | some n' =>
      rw [hn'] at hnode
      cases hnode with
      | some hsame =>
        cases hsame with
        | reference name properties => exact .inr ⟨name, properties, hn, hn'⟩
        | same hbody =>
          refine .inl ⟨n, hn, hn', ?_⟩
          -- a reference would have no target, and there is none such
          have hnot := hs.body?_ne_of_queued hqueued id
          rw [Arena.body?_of_get? hn] at hnot
          cases hcase : n.body with
          | reference target =>
            cases target with
            | none => exact absurd (congrArg some hcase) hnot
            | some target => exact absurd hcase (hbody target)
          | object name | array items | scalar type format | enumeration name values =>
            simp only [Node.isReference, hcase]

/-! ## Compilations -/

variable {decls : List TypeDecl} {c : Catalog}

/-- A type of an accepted catalog goes under one name, so it is alike to no other. -/
private theorem eq_of_alike (hc : Catalog.ofDecls decls = .ok c) {t t' : TypeId}
    (h : Catalog.Alike c c t t') : t = t' := by
  obtain ⟨name, ht, ht'⟩ := h
  exact ht.unique hc ht'

/-- Every type matches itself as a root. -/
private theorem rootsMatch_self (c : Catalog) (t : TypeId) :
    RootsMatch (Catalog.Alike c c) c c t t := by
  cases hd : c.get? t with
  | none => exact .inr ⟨hd, hd, rfl⟩
  | some d => exact .inl ⟨d.name, ⟨d, hd, rfl⟩, d, hd, rfl⟩

/-- Sessions that differ in the beginning of targets begin in lockstep. -/
private theorem lockstep_session (hc : Catalog.ofDecls decls = .ok c) (maxDepth : Nat)
    (p q : String) :
    Lockstep (Catalog.Alike c c) (Build.Reprefixed p q)
      (({ options := { maxDepth, refPrefix := p } } : Compiler).session c)
      (({ options := { maxDepth, refPrefix := q } } : Compiler).session c) where
  walks := by
    -- a catalog agrees with itself, so only the texts in front differ
    have hagrees := Catalog.agrees_of_subset hc hc (List.Subset.refl decls)
    have hclosed := Catalog.closed_of_ofDecls hc
    exact Walk.lockstep_of_refPrefix hagrees (eq_of_alike hc)
      fun ht => FieldPolicy.accessible_matches hagrees hclosed hclosed ht
  strategies := rfl
  strategies' := rfl
  build := .empty p q
  roots := rfl

/-- With two beginnings of targets, a compilation fails with the same error, or ends with documents
that differ in the targets of references only, and in which each node stands for the same node. -/
theorem compileMany_of_refPrefix (hc : Catalog.ofDecls decls = .ok c) (roots : List TypeId)
    (maxDepth : Nat) (p q : String) :
    let compile (refPrefix : String) :=
      ({ options := { maxDepth, refPrefix } } : Compiler).compileMany c roots
    (∃ e, compile p = .error e ∧ compile q = .error e) ∨
    ∃ doc doc', compile p = .ok doc ∧ compile q = .ok doc' ∧ doc.Reprefixed p q doc' ∧
      ∀ id, doc.resolve id = doc'.resolve id := by
  intro compile
  have hbegin := lockstep_session hc maxDepth p q
  have hroots : List.Forall₂ (RootsMatch (Catalog.Alike c c) c c) roots roots :=
    List.forall₂_same.mpr fun t _ => rootsMatch_self c t
  rcases hbegin.compileMany hroots with herror | ⟨hdoc, hdoc', hafter⟩
  · exact .inl herror
  · have hsound := (sound_session .accessible { maxDepth, refPrefix := p } c).after roots
    obtain ⟨hcatalog, hcompiler⟩ := after_setting
      (({ options := { maxDepth, refPrefix := p } } : Compiler).session c) roots
    obtain ⟨hcatalog', hcompiler'⟩ := after_setting
      (({ options := { maxDepth, refPrefix := q } } : Compiler).session c) roots
    -- no root failed, so no type is left unfinished and no fix-up is queued
    obtain ⟨hok, _⟩ := compileMany_eq_ok rfl hdoc
    have hexpanding := (compileRoots_ok hbegin.strategies hok).2.2.2
    have hqueued := (finish_eq_ok_iff.mp (finish_of_expandingTypes hexpanding)).1
    have hsame := hafter.document hsound hqueued (hcatalog.trans hcatalog'.symm)
      (by rw [hcompiler]; rfl) (by rw [hcompiler']; rfl)
    exact .inr ⟨_, _, hdoc, hdoc', hsame, hsame.resolve_eq⟩

/-- With no text before names, or with the name of the record itself, the reference of the record to
itself has another target, and stands for the same object. -/
theorem compileMany_of_refPrefix_cyclic :
    Catalog.ofDecls cyclicDecls = .ok cyclicCatalog ∧
    ∃ doc doc',
      ({ options := { maxDepth := 8, refPrefix := "" } } : Compiler).compileMany cyclicCatalog
        [⟨12⟩] = .ok doc ∧
      ({ options := { maxDepth := 8, refPrefix := "Person" } } : Compiler).compileMany
        cyclicCatalog [⟨12⟩] = .ok doc' ∧
      doc.arena.get? ⟨1⟩ = some (.reference "Person") ∧
      doc'.arena.get? ⟨1⟩ = some (.reference "PersonPerson") ∧
      doc.resolve ⟨1⟩ = some ⟨0⟩ ∧ doc'.resolve ⟨1⟩ = some ⟨0⟩ := by
  -- the compilation with no text in front is run; the other one follows from it
  have hplain : ({ options := { maxDepth := 8, refPrefix := "" } } : Compiler).compileMany
      cyclicCatalog [⟨12⟩] =
        .ok (cyclicSession { maxDepth := 8, refPrefix := "" } [⟨12⟩]).document := by decide +kernel
  rcases compileMany_of_refPrefix ofDecls_cyclicDecls [⟨12⟩] 8 "" "Person" with
    ⟨e, herror, _⟩ | ⟨doc, doc', hdoc, hdoc', hsame, hresolve⟩
  · exact nomatch hplain.symm.trans herror
  · obtain rfl := Except.ok.inj (hplain.symm.trans hdoc)
    have htarget : (cyclicSession { maxDepth := 8, refPrefix := "" } [⟨12⟩]).document.arena.get?
        ⟨1⟩ = some (.reference "Person") := by decide +kernel
    have hself : (cyclicSession { maxDepth := 8, refPrefix := "" } [⟨12⟩]).document.resolve ⟨1⟩ =
        some ⟨0⟩ := by decide +kernel
    refine ⟨ofDecls_cyclicDecls, _, doc', hdoc, hdoc', htarget, ?_, hself,
      (hresolve ⟨1⟩).symm.trans hself⟩
    -- the node is a reference, so its targets are those of one name
    rcases hsame.node ⟨1⟩ (by decide +kernel) with ⟨n, hn, _, hno⟩ | ⟨name, properties, hn, hn'⟩
    · rw [htarget] at hn
      cases hn
      cases hno
    · rw [htarget, Node.reference] at hn
      simp only [Option.some.injEq, Node.mk.injEq, Body.reference.injEq, String.empty_append] at hn
      obtain ⟨rfl, rfl⟩ := hn
      exact hn'

end Session

end Schemata
