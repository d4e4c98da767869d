import Schemata.Proofs.Session.Limit
import Schemata.Proofs.Session.Order
import Schemata.Proofs.Walk.Ahead

/-!
# Compiling roots together

After roots that all came to a node, no type is left unfinished, and what nodes stand for is closed
under what types mention.  So a session that goes on is ahead of one that begins, and a root that
comes to a node on its own comes to a node after other roots too.

## Key results

- `Sound.ahead`: a session in which no type is unfinished is ahead of one that begins
- `compileMany_ok_of_each`: roots that compile one by one compile together
-/

namespace Schemata

namespace Session

variable {s : Session} {done ts : List TypeId} {t : TypeId}

/-- A session in which no type is unfinished is ahead of one that begins, by the types that it
covers. -/
theorem Sound.ahead (h : s.Sound done) (hnone : s.build.progress.expandingTypes = []) :
    Build.Ahead s.setting (Walk.Covers s.setting s.build) {} s.build where
  completed hcovers hshape := hcovers.mem_completedTypes hnone hshape
  entered {t} hnew := by
    -- a type that is new to the later build is new to the empty one, which has met nothing
    refine ⟨fun hmem => absurd (.inl ?_) hnew, fun hmem => nomatch hmem⟩
    rw [h.build.mem_completedTypes_iff, hnone]
    exact ⟨hmem, fun hmem => nomatch hmem⟩
  expanding _ := by
    rw [hnone]
    rfl

/-- A root that comes to a node on its own comes to a node in every session in which no type is
unfinished. -/
private theorem Sound.compileRoot_ok_of_alone (h : s.Sound done) (hc : s.catalog.Closed)
    (hpolicy : s.compiler.policy.Closed s.catalog)
    (hnone : s.build.progress.expandingTypes = []) {id : NodeId}
    (halone : ((s.compiler.session s.catalog).compileRoot t).1 = .ok id) :
    ∃ id', (s.compileRoot t).1 = .ok id' := by
  have hbegin : Build.Sound s.setting {} := ⟨.empty _, .empty _⟩
  cases hd : s.catalog.get? t with
  | none =>
    rw [compileRoot, show (s.compiler.session s.catalog).catalog.get? t = none from hd] at halone
    cases halone
  | some d =>
    -- the run on its own, which comes to a node
    have hrun := Walk.Task.runs s.setting
      (.type s.compiler.options.maxDepth (.root d.simpleName) t) {}
    rcases hr : ((Walk.Task.type s.compiler.options.maxDepth (.root d.simpleName) t).action
      s.setting).runOn {} with ⟨e | id, b⟩
    · rw [hr] at hrun
      rw [compileRoot_eq (s := s.compiler.session s.catalog) h.strategies hd hrun] at halone
      cases halone
    · rw [hr] at hrun
      obtain ⟨id', b', hrun', _⟩ := hrun.of_ahead hc hpolicy
        (fun hcovers hedge => hcovers.of_edge h.build h.described hnone hedge)
        (Walk.Task.within_type (Catalog.has_of_get? hd)) hbegin trivial rfl (h.ahead hnone) h.build
        id trivial
      exact ⟨id', by rw [compileRoot_eq h.strategies hd hrun']; rfl⟩

/-- Roots that come to a node on their own come to a node one after the other. -/
private theorem Sound.compileRoots_ok_of_alone (h : s.Sound done) (hc : s.catalog.Closed)
    (hpolicy : s.compiler.policy.Closed s.catalog) (hnone : s.build.progress.expandingTypes = [])
    (halone : ∀ t ∈ ts, ∃ id, ((s.compiler.session s.catalog).compileRoot t).1 = .ok id) :
    (Compiler.compileRoots s ts).1 = .ok () := by
  -- the invariant is carried: after each root no type is left unfinished
  induction ts generalizing s done with
  | nil => rfl
  | cons t ts ih =>
    obtain ⟨id, hid⟩ := halone t List.mem_cons_self
    obtain ⟨id', hok⟩ := h.compileRoot_ok_of_alone hc hpolicy hnone hid
    have hroot := compilesRoot h.strategies t
    rw [Compiler.compileRoots]
    rcases hr : s.compileRoot t with ⟨e | id', s'⟩
    · rw [hr] at hok
      cases hok
    · rw [hr] at hroot
      have hs' := h.of_ok hroot
      cases hroot with
      | ok _ hrun =>
        -- the root leaves the catalog and the compiler as they were, and no type unfinished
        refine ih hs' hc hpolicy ?_ fun u hu => halone u (List.mem_cons_of_mem t hu)
        exact (hrun.expandingTypes_eq rfl).trans hnone

/-- A root that compiles comes to a node in a session of its own. -/
private theorem compileMany_singleton_ok {compiler : Compiler} {c : Catalog} {doc : Document}
    (hs : compiler.strategies = Strategy.standard) (h : compiler.compile c t = .ok doc) :
    ∃ id, ((compiler.session c).compileRoot t).1 = .ok id := by
  obtain ⟨hroots, _, _⟩ := compileMany_eq_ok hs h
  obtain ⟨id, _, hr, _, _⟩ := compileRoots_cons_ok hs hroots
  exact ⟨id, by rw [hr]⟩

/-- Roots that compile one by one, under a limit, compile together under the same limit. -/
theorem compileMany_ok_of_each (options : Options) {decls : List TypeDecl} {c : Catalog}
    (hc : Catalog.ofDecls decls = .ok c) {roots : List TypeId}
    (heach : ∀ t ∈ roots, ∃ doc, ({ options } : Compiler).compile c t = .ok doc) :
    ∃ doc, ({ options } : Compiler).compileMany c roots = .ok doc := by
  -- a resolved catalog is closed, so no root leaves it
  have hclosed := Catalog.closed_of_ofDecls hc
  have hsound := sound_session .accessible options c
  have hok := hsound.compileRoots_ok_of_alone hclosed (FieldPolicy.accessible_closed hclosed) rfl
    fun t ht => by
      obtain ⟨doc, hdoc⟩ := heach t ht
      exact compileMany_singleton_ok rfl hdoc
  exact ⟨_, compileMany_of_compileRoots rfl hok⟩

/-- Four levels are enough for the users and their orders, whichever are compiled together. -/
theorem compileMany_ok_of_each_shop :
    Catalog.ofDecls shopDecls = .ok shopCatalog ∧
    (∀ t ∈ [⟨14⟩, ⟨12⟩, ⟨13⟩], ∃ doc,
      ({ options := { maxDepth := 4 } } : Compiler).compile shopCatalog t = .ok doc) ∧
    ∃ doc, ({ options := { maxDepth := 4 } } : Compiler).compileMany shopCatalog
      [⟨14⟩, ⟨12⟩, ⟨13⟩] = .ok doc := by
  have heach : ∀ t ∈ [⟨14⟩, ⟨12⟩, ⟨13⟩], ∃ doc,
      ({ options := { maxDepth := 4 } } : Compiler).compile shopCatalog t = .ok doc := by
    -- each alone is run, and the theorem then speaks of all of them together
    have hroots : ∀ t ∈ [⟨14⟩, ⟨12⟩, ⟨13⟩], (Compiler.compileRoots
        (({ options := { maxDepth := 4 } } : Compiler).session shopCatalog) [t]).1 = .ok () := by
      decide +kernel
    exact fun t ht => ⟨_, compileMany_of_compileRoots rfl (hroots t ht)⟩
  exact ⟨ofDecls_shopDecls, heach, compileMany_ok_of_each _ ofDecls_shopDecls heach⟩

/-- The converse fails: with one level less, the user does not compile on its own, but behind the
order. -/
example :
    let session := ({ options := { maxDepth := 3 } } : Compiler).session shopCatalog
    (Compiler.compileRoots session [⟨14⟩, ⟨12⟩]).1 = .ok () ∧
      (Compiler.compileRoots session [⟨12⟩]).1 ≠ .ok () := by decide +kernel

end Session

end Schemata
