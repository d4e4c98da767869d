import Schemata.Proofs.Session.Components
import Schemata.Proofs.Session.Limit
import Schemata.Proofs.Walk.Met

/-!
# Documents under another limit

The limit decides only whether there is a document, not what is in it.  A compilation that comes to
its end under one limit has met sites; under another limit it comes to the same end, or fails at the
first of these sites that is too deep.

## Key results

- `compileRoot_limited`: one root under another limit
- `compileRoots_limited`: roots under another limit
- `limit_only_cuts_off`: documents under another limit
-/

namespace Schemata

namespace Session

/-- A session with another limit. -/
def limited (s : Session) (limit : Nat) : Session :=
  { s with
    compiler := { s.compiler with options := { s.compiler.options with maxDepth := limit } } }

variable {s s' : Session} {t : TypeId} {ts : List TypeId} {id : NodeId}

/-- A root that comes to a node does so under another limit, and nothing is different, unless it
meets a site that is too deep. -/
theorem compileRoot_limited (hs : s.compiler.strategies = Strategy.standard)
    (hr : s.compileRoot t = (.ok id, s')) (limit : Nat) :
    ∃ sites, s'.build.visited = s.build.visited ++ sites ∧
      (firstBeyond limit sites = none →
        (s.limited limit).compileRoot t = (.ok id, s'.limited limit)) ∧
      ∀ p, firstBeyond limit sites = some p → p.depth = limit + 1 ∧
        ((s.limited limit).compileRoot t).1 = .error (.tooDeep p.path limit) := by
  cases hd : s.catalog.get? t with
  | none =>
    rw [compileRoot, hd] at hr
    cases hr
  | some d =>
    obtain ⟨⟨_ | id', b⟩, hrun, heq⟩ := exists_run hs hd
    · rw [heq] at hr
      cases hr
    · rw [heq] at hr
      cases hr
      obtain ⟨sites, hvisited, _, hcut⟩ := hrun.exists_sites rfl limit
      -- the root itself is not deep, so it is met under every limit
      obtain ⟨hkept, hcut⟩ := hcut (Nat.zero_le limit)
      refine ⟨sites, hvisited, fun hnone => ?_, fun p hsome => ?_⟩
      -- no site is too deep, so the run under the other limit is this one
      · exact compileRoot_eq (s := s.limited limit) hs hd (hkept hnone)
      · obtain ⟨hdepth, b', hfailed⟩ := hcut p hsome
        rw [compileRoot_eq (s := s.limited limit) hs hd hfailed]
        exact ⟨hdepth, rfl⟩

/-- Compiling a root comes to sites only, whether it fails or not. -/
private theorem isSite_compileRoot {roots : List TypeId}
    (hs : s.compiler.strategies = Strategy.standard)
    (h : ∀ site ∈ s.build.visited, IsSite s.catalog s.compiler.policy roots site.1 site.2)
    (ht : t ∈ roots) :
    ∀ site ∈ (s.compileRoot t).2.build.visited,
      IsSite s.catalog s.compiler.policy roots site.1 site.2 := by
  cases hd : s.catalog.get? t with
  | none =>
    -- nothing is met on behalf of a type of another catalog
    rw [compileRoot, hd]
    exact h
  | some d =>
    obtain ⟨r, hrun, heq⟩ := exists_run hs hd
    -- being a site is handed down from a type to its fields and its elements
    obtain ⟨met, hvisited, hsites⟩ :=
      (hrun.meets (IsSite.handedDown _ _ roots) (IsSite.root ht hd)).met
    have hall : ∀ site ∈ r.2.visited, IsSite s.catalog s.compiler.policy roots site.1 site.2 := by
      intro site hsite
      rw [hvisited, List.mem_append] at hsite
      exact hsite.elim (h site) fun hsite => (hsites site hsite).1
    rw [heq]
    -- whether the run failed does not matter: its build has the sites either way
    obtain ⟨_ | _, b⟩ := r <;> exact hall

/-- Compiling roots comes to sites only. -/
theorem isSite_after {roots : List TypeId} (hs : s.compiler.strategies = Strategy.standard)
    (h : ∀ site ∈ s.build.visited,
      IsSite s.catalog s.compiler.policy roots site.1 site.2) (hts : ∀ t ∈ ts, t ∈ roots) :
    ∀ site ∈ (s.after ts).build.visited,
      IsSite s.catalog s.compiler.policy roots site.1 site.2 := by
  induction ts generalizing s with
  | nil => exact h
  | cons t ts ih =>
    -- the invariant is about the build, the strategies are carried beside it
    obtain ⟨hcatalog, hcompiler⟩ := (compilesRoot hs t).setting_eq
    have hroot := isSite_compileRoot hs h (hts t List.mem_cons_self)
    have hrest := ih (s := (s.compileRoot t).2) (by rw [hcompiler, hs])
      (by rw [hcatalog, hcompiler]; exact hroot) fun u hu => hts u (List.mem_cons_of_mem t hu)
    rw [hcatalog, hcompiler] at hrest
    exact hrest

/-- Roots that all come to a node do so under another limit, and nothing is different, unless they
meet a site that is too deep. -/
theorem compileRoots_limited (hs : s.compiler.strategies = Strategy.standard)
    (hok : (Compiler.compileRoots s ts).1 = .ok ()) (limit : Nat) :
    ∃ sites, (Compiler.compileRoots s ts).2.build.visited = s.build.visited ++ sites ∧
      (firstBeyond limit sites = none → Compiler.compileRoots (s.limited limit) ts =
        (.ok (), (Compiler.compileRoots s ts).2.limited limit)) ∧
      ∀ p, firstBeyond limit sites = some p → p.depth = limit + 1 ∧
        (Compiler.compileRoots (s.limited limit) ts).1 = .error (.tooDeep p.path limit) := by
  -- the first site that is too deep is looked for in the order of the roots
  induction ts generalizing s with
  | nil => exact ⟨[], (List.append_nil _).symm, fun _ => rfl, fun _ hsome => nomatch hsome⟩
  | cons t ts ih =>
    obtain ⟨id, s', hr, hroot, hrest⟩ := compileRoots_cons_ok hs hok
    obtain ⟨sites, hvisited, hkept, hcut⟩ := compileRoot_limited hs hr limit
    obtain ⟨sites', hvisited', hkept', hcut'⟩ := ih (by rw [hroot.setting_eq.2, hs]) hrest
    simp only [Compiler.compileRoots, hr]
    refine ⟨sites ++ sites', by rw [hvisited', hvisited, List.append_assoc], ?_, ?_⟩
    · intro hnone
      rw [firstBeyond_append, Option.or_eq_none_iff] at hnone
      rw [hkept hnone.1]
      exact hkept' hnone.2
    · intro p hsome
      rw [firstBeyond_append] at hsome
      cases hfirst : firstBeyond limit sites with
      | some q =>
        -- this root fails, so the others are not looked at
        rw [hfirst, Option.some_or] at hsome
        cases hsome
        obtain ⟨hdepth, herror⟩ := hcut _ hfirst
        refine ⟨hdepth, ?_⟩
        rcases hlimited : (s.limited limit).compileRoot t with ⟨e | id', s''⟩
        · rw [hlimited] at herror
          cases herror
          rfl
        · rw [hlimited] at herror
          cases herror
      -- the first deep site comes later, so this root is compiled as before
      | none =>
        rw [hfirst, Option.none_or] at hsome
        rw [hkept hfirst]
        exact hcut' p hsome

/-- A compilation comes to sites only. -/
private theorem isSite_compileLogged {options : Options} {c : Catalog} {roots : List TypeId}
    {doc : Document} (hdoc : ({ options } : Compiler).compileMany c roots = .ok doc) :
    ∀ site ∈ (({ options } : Compiler).compileLogged c roots).2.visited,
      IsSite c FieldPolicy.accessible roots site.1 site.2 := by
  obtain ⟨_, hbuild, _⟩ := compileMany_eq_ok rfl hdoc
  rw [hbuild]
  exact isSite_after (sound_session .accessible options c).strategies
    (fun _ hsite => nomatch hsite) fun _ ht => ht

/-- A compilation that ends well does the same under another limit, or fails at the first site that
is beyond that limit. -/
private theorem compileLogged_limited {options : Options} {c : Catalog} {roots : List TypeId}
    {doc : Document} (hdoc : ({ options } : Compiler).compileMany c roots = .ok doc) (limit : Nat) :
    let whole := ({ options } : Compiler).compileLogged c roots
    let other :=
      ({ options := { options with maxDepth := limit } } : Compiler).compileLogged c roots
    (firstBeyond limit whole.2.visited = none → other = whole) ∧
    ∀ p, firstBeyond limit whole.2.visited = some p →
      other.1 = .error (.tooDeep p.path limit) ∧ p.depth = limit + 1 := by
  intro whole other
  have hs := (sound_session .accessible options c).strategies
  obtain ⟨hok, _, _⟩ := compileMany_eq_ok rfl hdoc
  obtain ⟨sites, hvisited, hkept, hcut⟩ := compileRoots_limited hs hok limit
  -- the session begins with no sites, so those of the roots are all
  have hmet : whole.2.visited = sites := hvisited
  rw [hmet]
  constructor
  · intro hnone
    have hwhole : Compiler.compileRoots (({ options } : Compiler).session c) roots =
        (.ok (), (Compiler.compileRoots (({ options } : Compiler).session c) roots).2) :=
      Prod.ext hok rfl
    have hother : Compiler.compileRoots
        (({ options := { options with maxDepth := limit } } : Compiler).session c) roots =
          (.ok (),
            (Compiler.compileRoots (({ options } : Compiler).session c) roots).2.limited limit) :=
      hkept hnone
    simp only [whole, other, Compiler.compileLogged]
    rw [hwhole, hother]
    rfl
  -- a deep site makes the roots fail, and with them the compilation
  · intro p hsome
    obtain ⟨hdepth, herror⟩ := hcut p hsome
    exact ⟨compileMany_of_error herror, hdepth⟩

/-- Roots of a catalog can be compiled under some limit, and then the limit is a cut-off and nothing
else.  Whatever limit allows the compilation, the sites that it has met decide on all other limits:
if none of them is too deep for another limit, the document and the sites are the same under that
one, and else it fails at the first site that is too deep, which is one level too deep. -/
theorem limit_only_cuts_off (refPrefix : String) {decls : List TypeDecl} {c : Catalog}
    (hc : Catalog.ofDecls decls = .ok c) {roots : List TypeId} (hroots : ∀ t ∈ roots, c.Has t) :
    let compiler := fun limit => ({ options := { maxDepth := limit, refPrefix } } : Compiler)
    let met := fun limit => ((compiler limit).compileLogged c roots).2.visited
    (∃ large doc, (compiler large).compileMany c roots = .ok doc) ∧
    ∀ large doc, (compiler large).compileMany c roots = .ok doc →
      (∀ site ∈ met large, IsSite c FieldPolicy.accessible roots site.1 site.2) ∧ ∀ limit,
      ((∀ site ∈ met large, site.1.depth ≤ limit) →
        (compiler limit).compileMany c roots = .ok doc ∧ met limit = met large) ∧
      (∀ p, firstBeyond limit (met large) = some p →
        (compiler limit).compileMany c roots = .error (.tooDeep p.path limit) ∧
          (CompileError.tooDeep p.path limit).path? = some (".".intercalate p.path) ∧
          p.depth = limit + 1 ∧ p.path.length = limit + 2) ∧
      (large ≤ limit → (compiler limit).compileMany c roots = .ok doc) := by
  intro compiler met
  refine ⟨?_, fun large doc hdoc => ⟨isSite_compileLogged hdoc, fun limit => ?_⟩⟩
  -- some limit is high enough: each record once, and all containers before each
  · have hclosed := Catalog.closed_of_ofDecls hc
    have hs := sound_session .accessible
      { maxDepth := (c.records.length + 1) * (c.containers.length + 1), refPrefix } c
    exact ⟨_, _, compileMany_of_compileRoots rfl (compileRoots_ok_of_le hs hclosed
      (FieldPolicy.accessible_closed hclosed) hroots (Nat.le_refl _))⟩
  · obtain ⟨hkept, hcut⟩ := compileLogged_limited hdoc limit
    have hsame : (∀ site ∈ met large, site.1.depth ≤ limit) →
        (compiler limit).compileMany c roots = .ok doc ∧ met limit = met large := by
      intro hwithin
      have heq := hkept (firstBeyond_eq_none_iff.mpr hwithin)
      exact ⟨(congrArg Prod.fst heq).trans hdoc, congrArg (·.2.visited) heq⟩
    refine ⟨hsame, fun p hfirst => ?_, fun hle => (hsame fun site hsite => ?_).1⟩
    · obtain ⟨herror, hdepth⟩ := hcut p hfirst
      obtain ⟨t, hmem⟩ := exists_of_firstBeyond hfirst
      -- a path has the root and one segment for each level
      have hlength := (isSite_compileLogged hdoc (p, t) hmem).length_path
      exact ⟨herror, rfl, hdepth, by rw [hlength, hdepth]⟩
    · -- under its own limit the compilation is not cut off
      have hnone : firstBeyond large (met large) = none := by
        cases hfirst : firstBeyond large (met large) with
        | none => rfl
        | some p =>
          have herror := ((compileLogged_limited hdoc large).2 p hfirst).1
          cases hdoc.symm.trans herror
      exact Nat.le_trans (firstBeyond_eq_none_iff.mp hnone site hsite) hle

/-- Under a limit of one level, a record with a collection fails at the elements of that, which are
the only site that is two levels deep. -/
theorem limit_only_cuts_off_cyclic :
    Catalog.ofDecls cyclicDecls = .ok cyclicCatalog ∧
    (∀ t ∈ [⟨12⟩, ⟨13⟩], cyclicCatalog.Has t) ∧
    ({ options := { maxDepth := 2 } } : Compiler).compileMany cyclicCatalog [⟨12⟩, ⟨13⟩] =
      .ok (cyclicSession {} [⟨12⟩, ⟨13⟩]).document ∧
    firstBeyond 1 (({ options := { maxDepth := 2 } } : Compiler).compileLogged cyclicCatalog
      [⟨12⟩, ⟨13⟩]).2.visited = some { path := ["Person", "names", "items"], depth := 2 } ∧
    ({ options := { maxDepth := 1 } } : Compiler).compileMany cyclicCatalog [⟨12⟩, ⟨13⟩] =
      .error (.tooDeep ["Person", "names", "items"] 1) ∧
    ({ options := { maxDepth := 3 } } : Compiler).compileMany cyclicCatalog [⟨12⟩, ⟨13⟩] =
      .ok (cyclicSession {} [⟨12⟩, ⟨13⟩]).document := by
  have hroots : ∀ t ∈ [⟨12⟩, ⟨13⟩], cyclicCatalog.Has t := by
    unfold Catalog.Has
    decide
  have hdoc : ({ options := { maxDepth := 2 } } : Compiler).compileMany cyclicCatalog
      [⟨12⟩, ⟨13⟩] = .ok (cyclicSession {} [⟨12⟩, ⟨13⟩]).document := by decide +kernel
  have hfirst : firstBeyond 1 (({ options := { maxDepth := 2 } } : Compiler).compileLogged
      cyclicCatalog [⟨12⟩, ⟨13⟩]).2.visited =
        some { path := ["Person", "names", "items"], depth := 2 } := by decide +kernel
  obtain ⟨_, hlimits⟩ :=
    limit_only_cuts_off "#/components/schemas/" ofDecls_cyclicDecls hroots
  obtain ⟨_, hlimits⟩ := hlimits 2 _ hdoc
  exact ⟨ofDecls_cyclicDecls, hroots, hdoc, hfirst, ((hlimits 1).2.1 _ hfirst).1,
    (hlimits 3).2.2 (by decide)⟩

end Session

end Schemata
