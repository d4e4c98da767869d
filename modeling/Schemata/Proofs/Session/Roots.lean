import Schemata.Proofs.Walk.Depth
import Schemata.Session

/-!
# Sessions, root by root

A session may be given any number of roots, and goes on after one that fails.  `Session.after` is
the session that is left, and `Session.succeeded` lists the roots that came to a node.  What is
known of a session after one root (`Session.Sound`) is kept by the next, whether that fails or not.

## Key results

- `compilesRoot`: compiling a root is a run, or the root belongs to another catalog
- `Sound.after`: what is known of a session stays known
- `names_reached`: names are given only to types that a root leads to
- `compileRoots_eq`: compiling roots until one fails is a session after the first of them
-/

namespace Schemata

namespace Session

/-- The session that is left when roots are compiled one after the other, also those behind a root
that fails. -/
def after (s : Session) : List TypeId → Session
  | [] => s
  | t :: ts => (s.compileRoot t).2.after ts

/-- The roots that come to a node. -/
def succeeded (s : Session) : List TypeId → List TypeId
  | [] => []
  | t :: ts =>
    match s.compileRoot t with
    | (.ok _, s') => t :: s'.succeeded ts
    | (.error _, s') => s'.succeeded ts

/-- What compiling a root does to a session. -/
inductive CompilesRoot (s : Session) (t : TypeId) :
    Except CompileError NodeId × Session → Prop where
  /-- A type of another catalog changes nothing. -/
  | unknown (ht : ¬ s.catalog.Has t) : CompilesRoot s t (.error (.unknownType t.text), s)
  /-- A root comes to its node. -/
  | ok {id b p} (ht : s.catalog.Has t)
      (hrun : Walk.Runs s.setting (.type s.compiler.options.maxDepth p t) s.build (.ok id, b)) :
      CompilesRoot s t
        (.ok id, { s with build := b, position := {}, roots := s.roots ++ [id] })
  /-- A root fails, and what was built before stays. -/
  | failed {e b p} (ht : s.catalog.Has t)
      (hrun : Walk.Runs s.setting (.type s.compiler.options.maxDepth p t) s.build (.error e, b)) :
      CompilesRoot s t (.error e, { s with build := b, position := p })

/-- The session that a run at a position leaves: a node is one root more, and after an error the
position is kept. -/
def afterRun (s : Session) (p : Position) :
    Except CompileError NodeId × Build → Except CompileError NodeId × Session
  | (.ok id, b) => (.ok id, { s with build := b, position := {}, roots := s.roots ++ [id] })
  | (.error e, b) => (.error e, { s with build := b, position := p })

/-- Compiling a root of the catalog comes to what its walk comes to, whichever strategies there
are. -/
theorem compileRoot_eq_afterRun {s : Session} {t : TypeId} {d : TypeDef}
    (hd : s.catalog.get? t = some d) :
    s.compileRoot t = s.afterRun (.root d.simpleName)
      ((Walk.dispatch s.compiler.strategies
        (Walk.scopeAt s.compiler.strategies s.setting (.root d.simpleName)) t).runOn s.build) := by
  -- both sides are about one run, so it is given a name and then split
  generalize hrun : (Walk.dispatch s.compiler.strategies
    (Walk.scopeAt s.compiler.strategies s.setting (.root d.simpleName)) t).runOn s.build = r
  have hdispatch : dispatch { s with position := .root d.simpleName } t =
      (r.1, { s with position := .root d.simpleName, build := r.2 }) := by
    rw [← hrun]
    rfl
  rw [compileRoot, hd]
  simp only [hdispatch]
  obtain ⟨_ | _, _⟩ := r <;> rfl

/-- With the standard strategies, that is what a run at its position comes to. -/
theorem compileRoot_eq {s : Session} (hs : s.compiler.strategies = Strategy.standard) {t : TypeId}
    {d : TypeDef} (hd : s.catalog.get? t = some d) {r : Except CompileError NodeId × Build}
    (hrun : Walk.Runs s.setting (.type s.compiler.options.maxDepth (.root d.simpleName) t)
      s.build r) :
    s.compileRoot t = s.afterRun (.root d.simpleName) r := by
  rw [compileRoot_eq_afterRun hd, ← hrun.runOn_eq, hs]
  rfl

/-- Compiling a root of the catalog is a run at its position. -/
theorem exists_run {s : Session} (hs : s.compiler.strategies = Strategy.standard) {t : TypeId}
    {d : TypeDef} (hd : s.catalog.get? t = some d) :
    ∃ r, Walk.Runs s.setting (.type s.compiler.options.maxDepth (.root d.simpleName) t) s.build r ∧
      s.compileRoot t = s.afterRun (.root d.simpleName) r :=
  have hrun := Walk.Task.runs s.setting
    (.type s.compiler.options.maxDepth (.root d.simpleName) t) s.build
  ⟨_, hrun, compileRoot_eq hs hd hrun⟩

/-- With the standard strategies, compiling a root is a run. -/
theorem compilesRoot {s : Session} (hs : s.compiler.strategies = Strategy.standard) (t : TypeId) :
    CompilesRoot s t (s.compileRoot t) := by
  cases hd : s.catalog.get? t with
  | none =>
    have hunknown : s.compileRoot t = (.error (.unknownType t.text), s) := by rw [compileRoot, hd]
    rw [hunknown]
    refine .unknown fun ht => ?_
    obtain ⟨d, hsome⟩ := Catalog.exists_get?_of_has ht
    rw [hd] at hsome
    cases hsome
  | some d =>
    have ht := Catalog.has_of_get? hd
    -- on the outcome of the run at the root's position
    obtain ⟨⟨e | id, b⟩, hrun, heq⟩ := exists_run hs hd
    · rw [heq]
      exact .failed ht hrun
    · rw [heq]
      exact .ok ht hrun

end Session

/-! ## What is kept from root to root -/

/-- A node stands for a root: a record is its own node, or a placeholder if it was left unfinished
by an earlier root. -/
structure Build.HoldsRoot (S : Setting) (b : Build) (t : TypeId) (id : NodeId) : Prop where
  record : S.catalog.isRecord t = true →
    (t, id) ∈ b.progress.completed ∨ b.Awaits S.options.refPrefix t id
  plain : S.catalog.isRecord t = false → b.Represents S t id

/-- A node goes on to stand for a root when other roots are compiled. -/
private theorem Build.HoldsRoot.of_runs {S : Setting} {b : Build} {t u : TypeId} {id : NodeId}
    {room : Nat} {p : Position} {r : Except CompileError NodeId × Build} (h : b.HoldsRoot S t id)
    (hrun : Walk.Runs S (.type room p u) b r) (hb : b.Sound S) : r.2.HoldsRoot S t id where
  record hrecord := by
    -- a completed record stays completed, since types are only added
    rcases h.record hrecord with hobject | ⟨notes, hnotes, hmem⟩
    · obtain ⟨new, hnew, _⟩ := hrun.extends.completed
      rw [hnew]
      exact .inl (List.mem_append_left _ hobject)
    · -- what an earlier root left unfinished is never completed, so the placeholder waits on
      obtain ⟨ids, hids, _⟩ := hrun.extends.notes hnotes
      exact .inr ⟨_, hids, List.mem_append_left _ hmem⟩
  plain hplain := (h.plain hplain).of_moves hb (hrun.moves hb trivial)

namespace Session

/-- What is known of a session, where `done` lists the roots that came to a node. -/
structure Sound (s : Session) (done : List TypeId) : Prop where
  strategies : s.compiler.strategies = Strategy.standard
  build : s.build.Sound s.setting
  described : Walk.Described s.setting s.build
  roots : List.Forall₂ (s.build.HoldsRoot s.setting) done s.roots

variable {s s' : Session} {t : TypeId} {ts done : List TypeId}

/-- Nothing is known of a session that begins, but that it uses the standard strategies. -/
theorem sound_session (policy : FieldPolicy) (options : Options) (c : Catalog) :
    (({ policy, options } : Compiler).session c).Sound [] where
  strategies := rfl
  build := ⟨.empty _, .empty _⟩
  described _ _ h := nomatch h
  roots := .nil

/-- The node that a root comes to stands for it. -/
theorem CompilesRoot.holdsRoot {id : NodeId} (hroot : CompilesRoot s t (.ok id, s'))
    (hs : s.build.Sound s.setting) : s'.build.HoldsRoot s'.setting t id := by
  cases hroot with
  | ok ht hrun => exact ⟨hrun.completed_or_awaits, hrun.represents hs trivial rfl⟩

/-- After a root that comes to a node, the node is known to stand for it. -/
theorem Sound.of_ok {id : NodeId} (h : s.Sound done) (hroot : CompilesRoot s t (.ok id, s')) :
    s'.Sound (done ++ [t]) := by
  have hnew := hroot.holdsRoot h.build
  cases hroot with
  | ok ht hrun =>
    -- the earlier roots keep their nodes through the run of this one
    have hroots := h.roots.imp fun _ _ hold => hold.of_runs hrun h.build
    exact ⟨h.strategies, hrun.sound h.build trivial, hrun.described h.build trivial h.described,
      List.rel_append hroots (.cons hnew .nil)⟩

/-- After a root that fails, no more is known, and no less. -/
private theorem Sound.of_error {e : CompileError} (h : s.Sound done)
    (hroot : CompilesRoot s t (.error e, s')) : s'.Sound done := by
  cases hroot with
  | unknown ht => exact h
  | failed ht hrun =>
    have hroots := h.roots.imp fun _ _ hold => hold.of_runs hrun h.build
    exact ⟨h.strategies, hrun.sound h.build trivial, hrun.described h.build trivial h.described,
      hroots⟩

/-- Whether a root fails or not, something is known of the session that it leaves. -/
theorem Sound.of_compileRoot (h : s.Sound done) (t : TypeId) :
    ∃ done', (s.compileRoot t).2.Sound done' := by
  have hroot := compilesRoot h.strategies t
  rcases hr : s.compileRoot t with ⟨e | id, s'⟩
  · rw [hr] at hroot
    exact ⟨done, h.of_error hroot⟩
  · rw [hr] at hroot
    exact ⟨_, h.of_ok hroot⟩

/-- What is known of a session stays known when more roots are compiled. -/
theorem Sound.after (h : s.Sound done) (ts : List TypeId) :
    (s.after ts).Sound (done ++ s.succeeded ts) := by
  -- on the roots, from whatever the roots before them left
  induction ts generalizing s done with
  | nil =>
    rw [succeeded, List.append_nil]
    exact h
  -- a root that succeeds is the next of those that did
  | cons t ts ih =>
    have hroot := compilesRoot h.strategies t
    rw [Session.after, succeeded]
    rcases hr : s.compileRoot t with ⟨e | id, s'⟩
    · rw [hr] at hroot
      exact ih (h.of_error hroot)
    · rw [hr] at hroot
      have hrest := ih (h.of_ok hroot)
      rw [List.append_assoc] at hrest
      exact hrest

/-- A root changes neither the catalog nor the compiler. -/
theorem CompilesRoot.setting_eq {r : Except CompileError NodeId × Session}
    (h : CompilesRoot s t r) : r.2.catalog = s.catalog ∧ r.2.compiler = s.compiler := by
  cases h with
  | unknown | ok | failed => exact ⟨rfl, rfl⟩

/-- So it is whichever strategies there are. -/
theorem setting_compileRoot (s : Session) (t : TypeId) :
    (s.compileRoot t).2.catalog = s.catalog ∧ (s.compileRoot t).2.compiler = s.compiler := by
  cases hd : s.catalog.get? t with
  | none =>
    rw [compileRoot, hd]
    exact ⟨rfl, rfl⟩
  | some d =>
    rw [compileRoot_eq_afterRun hd]
    generalize (Walk.dispatch _ _ t).runOn s.build = r
    obtain ⟨_ | _, _⟩ := r <;> exact ⟨rfl, rfl⟩

/-- A session after some roots has the catalog and the compiler that it had before. -/
theorem after_setting (s : Session) (ts : List TypeId) :
    (s.after ts).catalog = s.catalog ∧ (s.after ts).compiler = s.compiler := by
  induction ts generalizing s with
  | nil => exact ⟨rfl, rfl⟩
  | cons t ts ih =>
    obtain ⟨hcatalog, hcompiler⟩ := setting_compileRoot s t
    obtain ⟨hcatalog', hcompiler'⟩ := ih (s.compileRoot t).2
    exact ⟨hcatalog'.trans hcatalog, hcompiler'.trans hcompiler⟩

/-- So its walks have the same setting. -/
theorem setting_after (s : Session) (ts : List TypeId) : (s.after ts).setting = s.setting := by
  obtain ⟨hcatalog, hcompiler⟩ := after_setting s ts
  rw [setting, hcatalog, hcompiler, setting]

/-- A root gives names only to types that it leads to. -/
theorem CompilesRoot.names_reached {r : Except CompileError NodeId × Session}
    (h : CompilesRoot s t r) (hc : s.catalog.Closed) (hpolicy : s.compiler.policy.Closed s.catalog)
    {u : TypeId} (hu : u ∈ r.2.build.names.types) :
    u ∈ s.build.names.types ∨
      s.catalog.Has t ∧ s.compiler.policy.Reaches s.catalog t u := by
  cases h with
  | unknown => exact .inl hu
  | ok ht hrun | failed ht hrun =>
    rcases hrun.reaches hc hpolicy (Walk.Task.within_type ht) hu with hold | ⟨v, hv, hreach⟩
    · exact .inl hold
    -- a root's walk begins at the root alone
    · rw [List.mem_singleton.mp hv] at hreach
      exact .inr ⟨ht, hreach⟩

/-- Names are given only to types that some root leads to. -/
theorem names_reached (hs : s.compiler.strategies = Strategy.standard) (hc : s.catalog.Closed)
    (hpolicy : s.compiler.policy.Closed s.catalog) {u : TypeId}
    (hu : u ∈ (s.after ts).build.names.types) :
    u ∈ s.build.names.types ∨
      ∃ t ∈ ts, s.catalog.Has t ∧ s.compiler.policy.Reaches s.catalog t u := by
  -- on the roots; a name was there before them, or the root that gave it is found
  induction ts generalizing s with
  | nil => exact .inl hu
  | cons t ts ih =>
    have hroot := compilesRoot hs t
    obtain ⟨hcatalog, hcompiler⟩ := hroot.setting_eq
    rcases ih (s := (s.compileRoot t).2) (by rw [hcompiler, hs]) (by rw [hcatalog]; exact hc)
      (by rw [hcatalog, hcompiler]; exact hpolicy) hu with hold | ⟨v, hv, hreach⟩
    · -- the name was there before the later roots
      cases hroot.names_reached hc hpolicy hold with
      | inl hold => exact .inl hold
      | inr hreach => exact .inr ⟨t, List.mem_cons_self, hreach⟩
    · rw [hcatalog, hcompiler] at hreach
      exact .inr ⟨v, List.mem_cons_of_mem t hv, hreach⟩

/-! ## Roots until one fails -/

/-- Compiling roots until one fails is a session after the first of them. -/
theorem compileRoots_eq (s : Session) (ts : List TypeId) :
    ∃ front, front <+: ts ∧ (Compiler.compileRoots s ts).2 = s.after front := by
  induction ts generalizing s with
  | nil => exact ⟨[], List.prefix_rfl, rfl⟩
  | cons t ts ih =>
    rw [Compiler.compileRoots]
    rcases hr : s.compileRoot t with ⟨e | id, s'⟩
    -- the first root that fails is the last one that is compiled
    · refine ⟨[t], List.prefix_append [t] ts, ?_⟩
      simp only [Session.after, hr]
    · obtain ⟨front, hfront, heq⟩ := ih s'
      refine ⟨t :: front, (List.cons_prefix_cons).mpr ⟨rfl, hfront⟩, ?_⟩
      simp only [Session.after, hr]
      exact heq

/-- If no root fails, the first comes to a node, and no root fails after it. -/
theorem compileRoots_cons_ok (hs : s.compiler.strategies = Strategy.standard)
    (h : (Compiler.compileRoots s (t :: ts)).1 = .ok ()) :
    ∃ id s', s.compileRoot t = (.ok id, s') ∧ CompilesRoot s t (.ok id, s') ∧
      (Compiler.compileRoots s' ts).1 = .ok () := by
  have hroot := compilesRoot hs t
  rw [Compiler.compileRoots] at h
  rcases hr : s.compileRoot t with ⟨e | id, s'⟩
  · rw [hr] at h
    cases h
  · rw [hr] at h hroot
    exact ⟨id, s', rfl, hroot, h⟩

/-- If no root fails, all of them belong to the catalog and come to a node, and no type is left
unfinished that was not before. -/
theorem compileRoots_ok (hs : s.compiler.strategies = Strategy.standard)
    (h : (Compiler.compileRoots s ts).1 = .ok ()) :
    (Compiler.compileRoots s ts).2 = s.after ts ∧ s.succeeded ts = ts ∧
      (∀ t ∈ ts, s.catalog.Has t) ∧
      (s.after ts).build.progress.expandingTypes = s.build.progress.expandingTypes := by
  -- on the roots, from any session that uses the standard strategies
  induction ts generalizing s with
  | nil => exact ⟨rfl, rfl, fun _ ht => (nomatch ht), rfl⟩
  | cons t ts ih =>
    obtain ⟨id, s', hr, hroot, hrest⟩ := compileRoots_cons_ok hs h
    rw [Compiler.compileRoots, Session.after, succeeded, hr]
    cases hroot with
    | ok ht hrun =>
      obtain ⟨heq, hsucceeded, hhas, hexpanding⟩ := ih (by exact hs) hrest
      refine ⟨heq, congrArg (t :: ·) hsucceeded, ?_, ?_⟩
      · intro u hu
        rcases List.mem_cons.mp hu with rfl | hu
        · exact ht
        · exact hhas u hu
      · rw [hexpanding]
        exact hrun.expandingTypes_eq rfl

end Session

end Schemata
