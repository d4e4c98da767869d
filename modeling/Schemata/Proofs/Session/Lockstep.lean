import Schemata.Proofs.Session.Limit
import Schemata.Proofs.Walk.Lockstep

/-!
# Sessions in lockstep

Two sessions whose walks go in lockstep come to the same node or fail with the same error when
related roots are compiled, and stay in lockstep.  So compilations that begin in lockstep both fail,
and in the same way, or both end with the document of a session.

## Key results

- `Lockstep.compileRoot` / `Lockstep.compileRoots`: related roots
- `Lockstep.compileMany`: compilations that begin in lockstep
-/

namespace Schemata

namespace Session

/-- Sessions with the same roots, on related builds, whose walks go in lockstep. -/
structure Lockstep (R : TypeId → TypeId → Prop) (B : Build → Build → Prop) (s s' : Session) :
    Prop where
  walks : Walk.Lockstep s.setting s'.setting R B
  strategies : s.compiler.strategies = Strategy.standard
  strategies' : s'.compiler.strategies = Strategy.standard
  build : B s.build s'.build
  roots : s.roots = s'.roots

/-- Roots that are related, or are one and the same and belong to neither catalog. -/
def RootsMatch (R : TypeId → TypeId → Prop) (c c' : Catalog) (t t' : TypeId) : Prop :=
  R t t' ∨ c.get? t = none ∧ c'.get? t' = none ∧ t = t'

namespace Lockstep

variable {R : TypeId → TypeId → Prop} {B : Build → Build → Prop} {s s' : Session} {t t' : TypeId}
  {ts ts' : List TypeId}

/-- Runs that end alike, on related builds, leave the sessions in lockstep. -/
private theorem afterRun (h : Lockstep R B s s') (p p' : Position)
    {r : Except CompileError NodeId × Build} {b' : Build} (hb : B r.2 b') :
    (s.afterRun p r).1 = (s'.afterRun p' (r.1, b')).1 ∧
      Lockstep R B (s.afterRun p r).2 (s'.afterRun p' (r.1, b')).2 := by
  obtain ⟨e | id, b⟩ := r
  -- a root that fails adds no root
  · exact ⟨rfl, { h with build := hb }⟩
  · exact ⟨rfl, { h with build := hb, roots := congrArg (· ++ [id]) h.roots }⟩

/-- Roots that match come to the same node or fail with the same error. -/
theorem compileRoot (h : Lockstep R B s s') (ht : RootsMatch R s.catalog s'.catalog t t') :
    (s.compileRoot t).1 = (s'.compileRoot t').1 ∧
      Lockstep R B (s.compileRoot t).2 (s'.compileRoot t').2 := by
  rcases ht with ht | ⟨hnone, hnone', rfl⟩
  -- both types are known, and only their short names are used
  · obtain ⟨d, d', hd, hd', hsame⟩ := h.walks.catalog.get ht
    have hrun := Walk.Task.runs s.setting
      (.type s.compiler.options.maxDepth (.root d.simpleName) t) s.build
    obtain ⟨b', hrun', hb'⟩ := hrun.lockstep h.walks (.type ht) h.build
    have hlimit : s.compiler.options.maxDepth = s'.compiler.options.maxDepth := h.walks.limit
    have hroot : s'.compileRoot t' = s'.afterRun (.root d'.simpleName) (_, b') :=
      -- the runs have the same number of levels, and begin at roots of the same name
      compileRoot_eq h.strategies' hd' (by rw [← hlimit, ← hsame.simpleName]; exact hrun')
    rw [compileRoot_eq h.strategies hd hrun, hroot]
    exact h.afterRun _ _ hb'
  · -- neither session does anything for a type of another catalog
    rw [Session.compileRoot, hnone, Session.compileRoot, hnone']
    exact ⟨rfl, h⟩

/-- Roots that match one by one come to the same end, and leave the sessions in lockstep. -/
theorem compileRoots (h : Lockstep R B s s')
    (hts : List.Forall₂ (RootsMatch R s.catalog s'.catalog) ts ts') :
    (Compiler.compileRoots s ts).1 = (Compiler.compileRoots s' ts').1 ∧
      Lockstep R B (Compiler.compileRoots s ts).2 (Compiler.compileRoots s' ts').2 := by
  -- on the roots, from any sessions in lockstep
  induction ts generalizing s s' ts' with
  | nil =>
    cases hts
    exact ⟨rfl, h⟩
  | cons t ts ih =>
    cases hts with
    | @cons _ t' _ ts' ht hts =>
      obtain ⟨hsame, hnext⟩ := h.compileRoot ht
      -- the catalogs stay as they are, so the other roots still match
      rw [← (compilesRoot h.strategies t).setting_eq.1,
        ← (compilesRoot h.strategies' t').setting_eq.1] at hts
      rw [Compiler.compileRoots, Compiler.compileRoots]
      rcases hr : s.compileRoot t with ⟨e | id, s₁⟩ <;>
        rcases hr' : s'.compileRoot t' with ⟨e' | id', s₁'⟩ <;>
        rw [hr, hr'] at hsame hnext hts
      -- the outcomes are equal, so two of the four cases cannot be
      · cases hsame
        exact ⟨rfl, hnext⟩
      · cases hsame
      · cases hsame
      · exact ih hnext hts

/-- Compilations that begin in lockstep fail with the same error, or end with the documents of
sessions that are in lockstep. -/
theorem compileMany {compiler compiler' : Compiler} {c c' : Catalog}
    (h : Lockstep R B (compiler.session c) (compiler'.session c'))
    (hts : List.Forall₂ (RootsMatch R c c') ts ts') :
    (∃ e, compiler.compileMany c ts = .error e ∧ compiler'.compileMany c' ts' = .error e) ∨
    compiler.compileMany c ts = .ok ((compiler.session c).after ts).document ∧
      compiler'.compileMany c' ts' = .ok ((compiler'.session c').after ts').document ∧
      Lockstep R B ((compiler.session c).after ts) ((compiler'.session c').after ts') := by
  obtain ⟨hsame, hafter⟩ := h.compileRoots hts
  cases hr : (Compiler.compileRoots (compiler.session c) ts).1 with
  | error e =>
    rw [hr] at hsame
    exact .inl ⟨e, compileMany_of_error hr, compileMany_of_error hsame.symm⟩
  | ok u =>
    have hok := hsame.symm.trans hr
    -- after roots that all came to a node, the runs leave the sessions that `after` does
    rw [(compileRoots_ok h.strategies hr).1, (compileRoots_ok h.strategies' hok).1] at hafter
    exact .inr ⟨compileMany_of_compileRoots h.strategies hr,
      compileMany_of_compileRoots h.strategies' hok, hafter⟩

end Lockstep

end Session

end Schemata
