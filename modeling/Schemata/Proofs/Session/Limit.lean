import Schemata.Proofs.Session.Finish

/-!
# How many levels are enough

Compiling roots of a resolved catalog goes well unless the walk goes too deep.  A limit of one more
than the number of records, times one more than the number of containers, is never too low.

## Key results

- `compileRoots_error` / `compileRoots_ok_of_le`: how compiling roots can fail, and when it does not
- `compileMany_ok_or_tooDeep`: the outcomes of a compilation, and a limit that rules one of them out
-/

namespace Schemata

namespace Session

variable {s : Session} {done ts : List TypeId} {t : TypeId} {e : CompileError}

/-- A root that fails went too deep, and the limit was lower than would be enough. -/
private theorem compileRoot_error (h : s.Sound done) (hc : s.catalog.Closed)
    (hpolicy : s.compiler.policy.Closed s.catalog) (ht : s.catalog.Has t)
    (herror : (s.compileRoot t).1 = .error e) :
    (∃ path, e = .tooDeep path s.compiler.options.maxDepth) ∧
      s.compiler.options.maxDepth <
        (s.catalog.records.length + 1) * (s.catalog.containers.length + 1) := by
  have hroot := compilesRoot h.strategies t
  rcases hr : s.compileRoot t with ⟨e' | id, s'⟩
  · rw [hr] at hroot herror
    cases herror
    cases hroot with
    | unknown hnot => exact absurd ht hnot
    -- if the run fails, less room was left than the task needs, and no task needs more than the
    -- bound
    | failed _ hrun =>
      have hlt := hrun.room_lt_need hc hpolicy (Walk.Task.within_type ht) h.build trivial rfl
      have hneed := Walk.Task.need_type_lt (S := s.setting) hc s.build 0 {} t
      exact ⟨hrun.error_eq rfl, Nat.lt_trans hlt hneed⟩
  · rw [hr] at herror
    cases herror

/-- If roots of a catalog are compiled and one fails, it went too deep, and the limit was lower than
would be enough. -/
theorem compileRoots_error (h : s.Sound done) (hc : s.catalog.Closed)
    (hpolicy : s.compiler.policy.Closed s.catalog) (hts : ∀ t ∈ ts, s.catalog.Has t)
    (herror : (Compiler.compileRoots s ts).1 = .error e) :
    (∃ path, e = .tooDeep path s.compiler.options.maxDepth) ∧
      s.compiler.options.maxDepth <
        (s.catalog.records.length + 1) * (s.catalog.containers.length + 1) := by
  -- roots that come to a node leave the catalog and the limit alone, so the bound is the same
  -- throughout
  induction ts generalizing s done with
  | nil => exact nomatch herror
  | cons t ts ih =>
    rw [Compiler.compileRoots] at herror
    rcases hr : s.compileRoot t with ⟨e' | id, s'⟩
    · rw [hr] at herror
      have herror : e' = e := Except.error.inj herror
      exact compileRoot_error h hc hpolicy (hts t List.mem_cons_self) (by rw [hr, herror])
    · rw [hr] at herror
      have hroot := compilesRoot h.strategies t
      rw [hr] at hroot
      -- the root came to a node, and left the catalog and the limit as they were
      obtain ⟨hcatalog, hcompiler⟩ := hroot.setting_eq
      dsimp only at hcatalog hcompiler
      rw [← hcatalog, ← hcompiler]
      refine ih (h.of_ok hroot) ?_ ?_ ?_ herror
      · rw [hcatalog]
        exact hc
      · rw [hcatalog, hcompiler]
        exact hpolicy
      · intro u hu
        rw [hcatalog]
        exact hts u (List.mem_cons_of_mem t hu)

/-- If there are levels enough, all roots of a catalog come to a node. -/
theorem compileRoots_ok_of_le (h : s.Sound done) (hc : s.catalog.Closed)
    (hpolicy : s.compiler.policy.Closed s.catalog) (hts : ∀ t ∈ ts, s.catalog.Has t)
    (hle : (s.catalog.records.length + 1) * (s.catalog.containers.length + 1) ≤
      s.compiler.options.maxDepth) : (Compiler.compileRoots s ts).1 = .ok () := by
  rcases hr : (Compiler.compileRoots s ts).1 with e | u
  -- an error would mean that the limit is below the bound
  · obtain ⟨_, hlt⟩ := compileRoots_error h hc hpolicy hts hr
    exact absurd hle (Nat.not_le.mpr hlt)
  · rfl

/-- A session in which no type is left unfinished ends well. -/
theorem finish_of_expandingTypes (h : s.build.progress.expandingTypes = []) :
    s.finish = .ok s.document := by
  refine finish_eq_ok_iff.mpr ⟨?_, rfl⟩
  -- fix-ups are queued for unfinished types only
  rw [Progress.queued, List.map_eq_nil_iff.mp h]
  rfl

/-- If no root fails, the compilation ends with the document of the session after all roots. -/
theorem compileMany_of_compileRoots {compiler : Compiler} {c : Catalog}
    (hs : compiler.strategies = Strategy.standard)
    (hok : (Compiler.compileRoots (compiler.session c) ts).1 = .ok ()) :
    compiler.compileMany c ts = .ok ((compiler.session c).after ts).document := by
  obtain ⟨heq, _, _, hexpanding⟩ := compileRoots_ok hs hok
  rw [Compiler.compileMany, Compiler.compileLogged]
  rcases hr : Compiler.compileRoots (compiler.session c) ts with ⟨e | u, s⟩
  · rw [hr] at hok
    -- the outcome of the roots is known, so the other case is closed
    cases hok
  · rw [hr] at heq
    obtain rfl : s = _ := heq
    exact finish_of_expandingTypes hexpanding

/-- If a root fails, the compilation fails with its error. -/
theorem compileMany_of_error {compiler : Compiler} {c : Catalog}
    (h : (Compiler.compileRoots (compiler.session c) ts).1 = .error e) :
    compiler.compileMany c ts = .error e := by
  rw [Compiler.compileMany, Compiler.compileLogged]
  rcases hr : Compiler.compileRoots (compiler.session c) ts with ⟨_ | _, s⟩
  · rw [hr] at h
    cases h
    rfl
  · rw [hr] at h
    cases h

/-- Compiling roots of a resolved catalog goes well or goes too deep, and it goes well if the limit
allows for each record once and for all containers before each. -/
theorem compileMany_ok_or_tooDeep (options : Options) {decls : List TypeDecl} {c : Catalog}
    (hc : Catalog.ofDecls decls = .ok c) (roots : List TypeId)
    (hroots : ∀ t ∈ roots, c.Has t) :
    let compiler : Compiler := { options }
    ((∃ doc, compiler.compileMany c roots = .ok doc) ∨
      ∃ path, compiler.compileMany c roots = .error (.tooDeep path options.maxDepth)) ∧
    ((c.records.length + 1) * (c.containers.length + 1) ≤ options.maxDepth →
      ∃ doc, compiler.compileMany c roots = .ok doc) := by
  intro compiler
  have hclosed := Catalog.closed_of_ofDecls hc
  have hsound := sound_session .accessible options c
  have hpolicy : FieldPolicy.accessible.Closed c := FieldPolicy.accessible_closed hclosed
  cases hr : (Compiler.compileRoots (compiler.session c) roots).1 with
  | error e =>
    obtain ⟨⟨path, rfl⟩, hlt⟩ := compileRoots_error hsound hclosed hpolicy hroots hr
    refine ⟨.inr ⟨path, compileMany_of_error hr⟩, fun hle => ?_⟩
    exact absurd hlt (Nat.not_lt.mpr hle)
  | ok _ =>
    have hdoc := compileMany_of_compileRoots rfl hr
    exact ⟨.inl ⟨_, hdoc⟩, fun _ => ⟨_, hdoc⟩⟩

/-- Four levels are enough for one record and one container. -/
theorem compileMany_ok_or_tooDeep_cyclic :
    Catalog.ofDecls cyclicDecls = .ok cyclicCatalog ∧
    (∀ t ∈ [⟨12⟩, ⟨13⟩], cyclicCatalog.Has t) ∧
    ∃ doc, ({ options := { maxDepth := 4 } } : Compiler).compileMany cyclicCatalog
      [⟨12⟩, ⟨13⟩] = .ok doc := by
  have hroots : ∀ t ∈ [⟨12⟩, ⟨13⟩], cyclicCatalog.Has t := by
    unfold Catalog.Has
    decide
  obtain ⟨_, henough⟩ :=
    compileMany_ok_or_tooDeep { maxDepth := 4 } ofDecls_cyclicDecls [⟨12⟩, ⟨13⟩] hroots
  exact ⟨ofDecls_cyclicDecls, hroots, henough (by decide)⟩

end Session

end Schemata
