import Schemata.Proofs.Session.CutOff
import Schemata.Proofs.Walk.Claimed

/-!
# Compiling with some of the strategies

A compilation is one action on an empty build, and then the end of its session.  So what is known of
walks with some of the standard strategies holds of compilations: with a list that claims the types
of all sites that are met, the outcome is the standard one, in whatever order the list has them;
with any other list, the compilation fails at the first site whose type is not claimed.

## Key results

- `compileLogged_eq`: a compilation is an action on an empty build
- `compileMany_of_strategies`: the outcome with some of the strategies
-/

namespace Schemata

namespace Walk

/-- Converts a root. -/
def root (strategies : List Strategy) (S : Setting) (t : TypeId) : BuildM NodeId :=
  match S.catalog.get? t with
  | none => throw (.unknownType t.text)
  | some d => dispatch strategies (scopeAt strategies S (.root d.simpleName)) t

/-- Converts roots until one fails. -/
def roots (strategies : List Strategy) (S : Setting) : List TypeId → BuildM (List NodeId)
  | [] => pure []
  | t :: ts => do
    let id ← root strategies S t
    let ids ← roots strategies S ts
    return id :: ids

variable {strategies : List Strategy} {S : Setting}

/-- Converting a root with some of the strategies follows converting it with all of them. -/
private theorem follows_root (hstandard : ∀ s ∈ strategies, s ∈ Strategy.standard) (t : TypeId)
    (b : Build) :
    Follows strategies S.catalog b ((root Strategy.standard S t).runOn b)
      ((root strategies S t).runOn b) := by
  unfold root
  cases hd : S.catalog.get? t with
  -- a type of another catalog fails before any site is met
  | none => exact .of_visited rfl
  | some d => exact follows_dispatch hstandard (.root d.simpleName) t b

/-- Converting roots with some of the strategies follows converting them with all. -/
private theorem follows_roots (hstandard : ∀ s ∈ strategies, s ∈ Strategy.standard)
    (ts : List TypeId) (b : Build) :
    Follows strategies S.catalog b ((roots Strategy.standard S ts).runOn b)
      ((roots strategies S ts).runOn b) := by
  induction ts generalizing b with
  | nil => exact .of_visited rfl
  -- as long as no site stops the shorter list, both runs go on from the same build
  | cons t ts ih =>
    unfold roots
    refine .bind (follows_root hstandard t b) fun id b' _ => ?_
    exact .bind (ih b') fun ids b'' _ => .of_visited rfl

end Walk

namespace Session

/-- Compiling a root leaves what converting it leaves, and its node is one root more. -/
private theorem compileRoot_of_runOn {s : Session} {t : TypeId} {r : Except CompileError NodeId}
    {b : Build} (hrun : (Walk.root s.compiler.strategies s.setting t).runOn s.build = (r, b)) :
    (s.compileRoot t).1 = r ∧ (s.compileRoot t).2.build = b ∧ ∀ id, r = .ok id →
      (s.compileRoot t).2 = { s with build := b, position := {}, roots := s.roots ++ [id] } := by
  rw [Walk.root] at hrun
  cases hd : s.catalog.get? t with
  | none =>
    rw [show s.setting.catalog.get? t = none from hd] at hrun
    cases hrun
    rw [compileRoot, hd]
    refine ⟨rfl, rfl, fun id hid => ?_⟩
    cases hid
  | some d =>
    rw [show s.setting.catalog.get? t = some d from hd] at hrun
    rw [compileRoot_eq_afterRun hd, hrun]
    cases r with
    | error e =>
      refine ⟨rfl, rfl, fun id hid => ?_⟩
      -- a failed root keeps its path, so only the build is determined
      cases hid
    | ok id =>
      refine ⟨rfl, rfl, fun other hother => ?_⟩
      cases hother
      rfl

/-- Compiling roots until one fails leaves what converting them leaves, and if none fails the
session ends as one that holds their nodes. -/
private theorem compileRoots_of_runOn {s : Session} {ts : List TypeId}
    {r : Except CompileError (List NodeId)} {b : Build}
    (hrun : (Walk.roots s.compiler.strategies s.setting ts).runOn s.build = (r, b)) :
    (Compiler.compileRoots s ts).2.build = b ∧
      ((Compiler.compileRoots s ts).1.bind fun _ => (Compiler.compileRoots s ts).2.finish) =
        r.bind fun ids => { s with build := b, roots := s.roots ++ ids }.finish := by
  induction ts generalizing s r b with
  | nil =>
    cases hrun
    refine ⟨rfl, ?_⟩
    show s.finish = Session.finish { s with roots := s.roots ++ [] }
    rw [List.append_nil]
  | cons t ts ih =>
    rw [Walk.roots] at hrun
    rw [Compiler.compileRoots]
    rcases hroot : (Walk.root s.compiler.strategies s.setting t).runOn s.build with ⟨e | id, b₁⟩
    · obtain ⟨houtcome, hbuild, _⟩ := compileRoot_of_runOn hroot
      rw [BuildM.runOn_bind_error hroot] at hrun
      cases hrun
      rw [show s.compileRoot t = (.error e, (s.compileRoot t).2) from Prod.ext houtcome rfl]
      exact ⟨hbuild, rfl⟩
    · -- the other roots are compiled in a session that holds one node more
      obtain ⟨houtcome, _, hafter⟩ := compileRoot_of_runOn hroot
      rw [show s.compileRoot t = (.ok id, _) from Prod.ext houtcome (hafter id rfl)]
      rw [BuildM.runOn_bind_ok hroot, BuildM.runOn_bind] at hrun
      rcases hids : (Walk.roots s.compiler.strategies s.setting ts).runOn b₁ with ⟨rest, b₂⟩
      obtain ⟨hbuild, hfinish⟩ :=
        -- the hypothesis holds for every session, so it is used at the one that this root leaves
        ih (s := { s with build := b₁, position := {}, roots := s.roots ++ [id] }) hids
      rw [hids] at hrun
      cases rest with
      | error e =>
        cases hrun
        exact ⟨hbuild, hfinish⟩
      | ok ids =>
        cases hrun
        refine ⟨hbuild, hfinish.trans ?_⟩
        show Session.finish
          { s with build := b, position := {}, roots := s.roots ++ [id] ++ ids } = _
        rw [List.append_assoc]
        rfl

/-- A compilation is an action on an empty build, and then the end of its session. -/
theorem compileLogged_eq (compiler : Compiler) (c : Catalog) (ts : List TypeId) :
    compiler.compileLogged c ts =
      let r := (Walk.roots compiler.strategies (compiler.session c).setting ts).runOn {}
      (r.1.bind fun ids => { compiler.session c with build := r.2, roots := ids }.finish, r.2) := by
  obtain ⟨hbuild, hfinish⟩ := compileRoots_of_runOn (s := compiler.session c) rfl
  exact Prod.ext hfinish hbuild

/-- A compilation comes to sites only, whether it fails or not. -/
private theorem isSite_of_mem_visited (options : Options) (c : Catalog) (roots : List TypeId) :
    ∀ site ∈ (({ options } : Compiler).compileLogged c roots).2.visited,
      IsSite c FieldPolicy.accessible roots site.1 site.2 := by
  obtain ⟨front, hfront, heq⟩ := compileRoots_eq (({ options } : Compiler).session c) roots
  show ∀ site ∈
    (Compiler.compileRoots (({ options } : Compiler).session c) roots).2.build.visited, _
  rw [heq]
  exact isSite_after (sound_session .accessible options c).strategies
    (fun _ hsite => nomatch hsite) fun _ ht => hfront.subset ht

/-- The outcome with some of the standard strategies, in any order and listed any number of times.
If they claim the types of all sites that the standard compilation meets, the outcome is the
standard one.  If not, the compilation meets the same sites up to the first one that is not claimed,
and fails there.  So the order of the five makes no difference. -/
theorem compileMany_of_strategies (options : Options) (c : Catalog) (roots : List TypeId)
    {strategies : List Strategy} (hstandard : ∀ s ∈ strategies, s ∈ Strategy.standard) :
    let standard : Compiler := { options }
    let other : Compiler := { strategies, options }
    let met := (standard.compileLogged c roots).2.visited
    (∀ site ∈ met, IsSite c FieldPolicy.accessible roots site.1 site.2) ∧
    ((∀ site ∈ met, Claimed strategies c site.2) →
      other.compileMany c roots = standard.compileMany c roots) ∧
    ((¬ ∀ site ∈ met, Claimed strategies c site.2) → ∃ front p t back,
      met = front ++ (p, t) :: back ∧ (∀ site ∈ front, Claimed strategies c site.2) ∧
        ¬ Claimed strategies c t ∧
        other.compileMany c roots = .error (.noStrategy p.path (c.name t)) ∧
        (CompileError.noStrategy p.path (c.name t)).path? = some p.text ∧
        (other.compileLogged c roots).2.visited = front ++ [(p, t)]) ∧
    (strategies.Perm Strategy.standard →
      other.compileMany c roots = standard.compileMany c roots) := by
  intro standard other met
  -- the two sessions differ in their strategies only, which the end of a session does not use
  have hmet : met = ((Walk.roots Strategy.standard (standard.session c).setting roots).runOn
      {}).2.visited :=
    congrArg (fun r => r.2.visited) (compileLogged_eq standard c roots)
  have hother := compileLogged_eq other c roots
  have hfollows := Walk.follows_roots (S := (standard.session c).setting) hstandard roots {}
  generalize hrun : (Walk.roots strategies (standard.session c).setting roots).runOn {} = r'
    at hfollows
  rw [show Walk.roots other.strategies (other.session c).setting roots =
    Walk.roots strategies (standard.session c).setting roots from rfl, hrun] at hother
  have hsame : (∀ site ∈ met, Claimed strategies c site.2) →
      other.compileMany c roots = standard.compileMany c roots := by
    intro hall
    cases hfollows with
    -- no site was refused, so the runs are one and the same
    | same =>
      exact congrArg Prod.fst (hother.trans (compileLogged_eq standard c roots).symm)
    -- the site at which the shorter list stops is among those that the standard run meets
    | @stopped front p t back _ hsites _ hnot =>
      refine absurd (hall (p, t) ?_) hnot
      rw [hmet, hsites]
      exact List.mem_append_right _ (List.mem_append_right _ List.mem_cons_self)
  refine ⟨isSite_of_mem_visited options c roots, hsame, fun hall => ?_, fun hperm => ?_⟩
  -- not all sites are claimed, so the run has stopped
  · cases hfollows with
    | same _ hsites hclaimed =>
      refine absurd (fun site hsite => hclaimed site ?_) hall
      rwa [hmet, hsites] at hsite
    | @stopped front p t back _ hsites hclaimed hnot hstopped =>
      exact ⟨front, p, t, back, hmet.trans hsites, hclaimed, hnot, congrArg Prod.fst hother, rfl,
        (congrArg (fun r => r.2.visited) hother).trans hstopped⟩
  -- a permutation has every strategy, so whatever the standard list selects claims the site here
  · refine hsame fun site _ => ?_
    obtain ⟨hmem, hclaims⟩ := claims_of_select (Walk.select_standard c site.2)
    exact ⟨_, hperm.mem_iff.mpr hmem, hclaims⟩

/-- Without the strategy for collections, the record is begun and fails at its collection.  In the
other order, the five do what they do in theirs. -/
theorem compileMany_of_strategies_cyclic :
    (∀ s ∈ [Strategy.record, .scalar], s ∈ Strategy.standard) ∧
    (¬ ∀ site ∈ (({} : Compiler).compileLogged cyclicCatalog [⟨12⟩]).2.visited,
      Claimed [.record, .scalar] cyclicCatalog site.2) ∧
    ({ strategies := [.record, .scalar] } : Compiler).compileMany cyclicCatalog [⟨12⟩] =
      .error (.noStrategy ["Person", "names"] "Names") ∧
    Strategy.standard.reverse.Perm Strategy.standard ∧
    ({ strategies := Strategy.standard.reverse } : Compiler).compileMany cyclicCatalog [⟨12⟩] =
      .ok (cyclicSession {} [⟨12⟩]).document := by
  have hsome : ∀ s ∈ [Strategy.record, .scalar], s ∈ Strategy.standard := by
    simp [Strategy.standard]
  have hnot : ¬ ∀ site ∈ (({} : Compiler).compileLogged cyclicCatalog [⟨12⟩]).2.visited,
      Claimed [.record, .scalar] cyclicCatalog site.2 := by decide +kernel
  have hreverse : Strategy.standard.reverse.Perm Strategy.standard := List.reverse_perm _
  have hdoc : ({} : Compiler).compileMany cyclicCatalog [⟨12⟩] =
      .ok (cyclicSession {} [⟨12⟩]).document := by decide +kernel
  obtain ⟨_, _, hstopped, _⟩ := compileMany_of_strategies {} cyclicCatalog [⟨12⟩] hsome
  obtain ⟨_, _, _, hperm⟩ := compileMany_of_strategies {} cyclicCatalog [⟨12⟩]
    fun s hs => hreverse.mem_iff.mp hs
  obtain ⟨front, p, t, _, _, _, _, herror, _, hmet⟩ := hstopped hnot
  -- the first site that is not claimed is the last one that is met
  have hlast : some (p, t) = some ({ path := ["Person", "names"], depth := 1 }, ⟨13⟩) := by
    have hlog : (({ strategies := [.record, .scalar] } : Compiler).compileLogged cyclicCatalog
        [⟨12⟩]).2.visited.getLast? =
          some ({ path := ["Person", "names"], depth := 1 }, ⟨13⟩) := by decide +kernel
    -- the log ends with that site by `hmet`, and ends with the collection by evaluation
    rw [← hlog, hmet, List.getLast?_concat]
  cases hlast
  exact ⟨hsome, hnot, herror, hreverse, (hperm hreverse).trans hdoc⟩

end Session

end Schemata
