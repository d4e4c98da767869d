import Schemata.Proofs.Session.Claimed
import Schemata.Proofs.Walk.Walker

/-!
# The position of a session

A session hands its position down to the walks that it begins.  If it lets a cursor go through them
instead, and keeps the position to which the cursor has come in the end, nothing is different: the
cursor has come back, from whichever level a walk fails.

From root to root the position does change.  It is cleared when a root comes to a node.  After a
root that fails it stays at that root, until the next root of the catalog is compiled, and what is
dispatched in between reports paths that begin there.

## Key results

- `moveField_eq` / `moveRoot_eq`: a cursor that goes through a walk makes no difference
- `walks_restore_position`: where walks stand, on the way and in the end
- `position_after_roots`: where a session stands after some roots
-/

namespace Schemata.Session

variable {s : Session} {walkers : List Walker} {t : TypeId} {ts : List TypeId}

/-! ## Sessions that move -/

/-- Converts a field with a cursor that begins at the position of a session.  The session keeps the
position to which the cursor has come. -/
def moveField (walkers : List Walker) (s : Session) (f : Field) :
    Except CompileError NodeId × Session :=
  let r := (Walker.visit walkers s.setting s.compiler.options.maxDepth f).runOn
    ⟨s.position, s.build⟩
  (r.1, { s with position := r.2.position, build := r.2.build })

/-- Compiles a root with a cursor that begins there.  If the root comes to a node, the path is
cleared, but the depth is the one to which the cursor has come. -/
def moveRoot (walkers : List Walker) (s : Session) (t : TypeId) :
    Except CompileError NodeId × Session :=
  match s.catalog.get? t with
  | none => (.error (.unknownType t.text), s)
  | some d =>
    match (Walker.dispatch walkers s.setting t).runOn ⟨.root d.simpleName, s.build⟩ with
    | (.ok id, c) =>
      (.ok id,
        { s with
          position := { c.position with path := [] }
          build := c.build
          roots := s.roots ++ [id] })
    | (.error e, c) => (.error e, { s with position := c.position, build := c.build })

/-- The session that is left when roots are compiled in this way. -/
def movedAfter (walkers : List Walker) (s : Session) : List TypeId → Session
  | [] => s
  | t :: ts => movedAfter walkers (s.moveRoot walkers t).2 ts

/-- The cursor comes back from a field, and has done what the session does. -/
theorem moveField_eq (hs : walkers.map (·.strategy) = s.compiler.strategies)
    (hwalkers : ∀ w ∈ walkers, w ∈ Walker.standard) (f : Field) :
    s.moveField walkers f = s.dispatchField f := by
  -- the cursor may go as deep as the limit allows from where the session stands
  have hlevels : s.setting.options.maxDepth ≤ s.position.depth + s.compiler.options.maxDepth :=
    Nat.le_add_left _ _
  have hreturns := Walker.returns_visit (fun w hw => Walker.follows_of_mem_standard (hwalkers w hw))
    hlevels f s.build
  rw [hs] at hreturns
  unfold moveField
  -- a cursor that returns is the position of before, with the build of the walk
  rw [hreturns]
  rfl

/-- So it does from a root. -/
theorem moveRoot_eq (hs : walkers.map (·.strategy) = s.compiler.strategies)
    (hwalkers : ∀ w ∈ walkers, w ∈ Walker.standard) (t : TypeId) :
    s.moveRoot walkers t = s.compileRoot t := by
  cases hd : s.catalog.get? t with
  -- nothing moves for a type of another catalog
  | none => rw [moveRoot, compileRoot, hd]
  | some d =>
    have hreturns := Walker.returns_dispatch (S := s.setting)
      (fun w hw => Walker.follows_of_mem_standard (hwalkers w hw)) (.root d.simpleName) t s.build
    rw [moveRoot, hd, compileRoot_eq_afterRun hd]
    simp only [hreturns, hs]
    -- only a node clears the position, and the cursor has come back to depth 0 by then
    generalize (Walk.dispatch _ _ t).runOn s.build = r
    obtain ⟨_ | _, _⟩ := r <;> rfl

/-- With the standard strategies, a field leaves a session where it stands, whether it comes to a
node or fails, and however deep.  A root comes to sites only: the short name of the root, and then
the names of the fields, or of elements, that lead from there to the type that is converted.  None
of them is deeper than the limit, and the path of each has one name more than it is deep. -/
theorem walks_restore_position (hs : s.compiler.strategies = Strategy.standard) :
    (∀ f, s.moveField Walker.standard f = s.dispatchField f ∧
      (s.moveField Walker.standard f).2.position = s.position) ∧
    ∀ t, s.moveRoot Walker.standard t = s.compileRoot t ∧
      ∃ met, (s.moveRoot Walker.standard t).2.build.visited = s.build.visited ++ met ∧
        ∀ site ∈ met, IsSite s.catalog s.compiler.policy [t] site.1 site.2 ∧
          site.1.depth ≤ s.compiler.options.maxDepth ∧
          site.1.path.length = site.1.depth + 1 := by
  have hmap : Walker.standard.map (·.strategy) = s.compiler.strategies :=
    Walker.map_strategy_standard.trans hs.symm
  have hmem : ∀ w ∈ Walker.standard, w ∈ Walker.standard := fun _ hw => hw
  constructor
  case left =>
    intro f
    rw [moveField_eq hmap hmem]
    exact ⟨rfl, rfl⟩
  case right =>
    intro t
    rw [moveRoot_eq hmap hmem]
    refine ⟨rfl, ?_⟩
    cases hd : s.catalog.get? t with
    | none =>
      rw [compileRoot, hd]
      exact ⟨[], (List.append_nil _).symm, List.forall_mem_nil _⟩
    | some d =>
      obtain ⟨r, hrun, heq⟩ := exists_run hs hd
      have hroot : IsSite s.catalog s.compiler.policy [t] (.root d.simpleName) t :=
        .root List.mem_cons_self hd
      -- every site that is met is handed down from the root
      obtain ⟨met, hvisited, hsites⟩ := (hrun.meets (IsSite.handedDown _ _ [t]) hroot).met
      have hlowest : (Walk.Task.type s.compiler.options.maxDepth (.root d.simpleName) t).lowest =
          s.compiler.options.maxDepth := Nat.zero_add _
      refine ⟨met, ?_, fun site hsite => ?_⟩
      -- failed or not, the session keeps the build of the run
      · rw [heq, ← hvisited]
        obtain ⟨_ | _, _⟩ := r <;> rfl
      · obtain ⟨hsite, hdepth⟩ := hsites site hsite
        rw [hlowest] at hdepth
        exact ⟨hsite, hdepth, hsite.length_path⟩

/-- A field whose values are collections. -/
def ownerField : Field := { name := "owner", type := ⟨13⟩, declaring := ⟨12⟩ }

/-- Under a limit of one level, a field with a collection fails at the elements of that, and leaves
the session at the root that failed before; the collection itself is met with its elements. -/
theorem walks_restore_position_cyclic :
    let s := cyclicSession { maxDepth := 1 } [⟨12⟩]
    s.compiler.strategies = Strategy.standard ∧
    (s.moveField Walker.standard ownerField).1 = .error (.tooDeep ["Person", "owner", "items"] 1) ∧
    (s.moveField Walker.standard ownerField).2.position = .root "Person" ∧
    ∀ site ∈ [(Position.root "Names", (⟨13⟩ : TypeId)),
        ((Position.root "Names").enter "items", ⟨9⟩)],
      IsSite cyclicCatalog .accessible [⟨13⟩] site.1 site.2 ∧ site.1.depth ≤ 1 ∧
        site.1.path.length = site.1.depth + 1 := by
  intro s
  have hs : s.compiler.strategies = Strategy.standard := rfl
  -- the theorem gives the field's outcome and the sites of a collection as a root
  obtain ⟨hfields, hroots⟩ := walks_restore_position hs
  obtain ⟨hsame, hposition⟩ := hfields ownerField
  obtain ⟨hroot, met, hvisited, hsites⟩ := hroots ⟨13⟩
  have hfailed : (s.dispatchField ownerField).1 =
      .error (.tooDeep ["Person", "owner", "items"] 1) := by decide +kernel
  have hstands : s.position = .root "Person" := by decide +kernel
  have hmet : (s.compileRoot ⟨13⟩).2.build.visited = s.build.visited ++
      [(Position.root "Names", ⟨13⟩), ((Position.root "Names").enter "items", ⟨9⟩)] := by
    decide +kernel
  rw [hroot, hmet] at hvisited
  -- both lists of sites continue the same log, so they are equal
  obtain rfl := List.append_cancel_left hvisited
  exact ⟨hs, by rw [hsame, hfailed], hposition.trans hstands, hsites⟩

/-! ## From root to root -/

private theorem after_append (s : Session) (ts us : List TypeId) :
    s.after (ts ++ us) = (s.after ts).after us := by
  -- on the first roots, from any session
  induction ts generalizing s with
  | nil => rfl
  | cons t ts ih => exact ih (s.compileRoot t).2

/-- Types of other catalogs change nothing. -/
private theorem after_of_foreign (h : ∀ t ∈ ts, s.catalog.get? t = none) : s.after ts = s := by
  induction ts with
  | nil => rfl
  | cons t ts ih =>
    rw [List.forall_mem_cons] at h
    -- the first of them is not found, and a session that does not find its root stays as it is
    have hroot : (s.compileRoot t).2 = s := by rw [compileRoot, h.1]
    rw [after, hroot]
    exact ih h.2

/-- A root of the catalog clears the position if it comes to a node, and else leaves its own. -/
private theorem position_compileRoot {d : TypeDef} (hd : s.catalog.get? t = some d) :
    (s.compileRoot t).2.position =
      match (s.compileRoot t).1 with
      | .ok _ => {}
      | .error _ => .root d.simpleName := by
  rw [compileRoot_eq_afterRun hd]
  generalize (Walk.dispatch _ _ t).runOn s.build = r
  -- a node clears, an error keeps the position of the root
  obtain ⟨_ | _, _⟩ := r <;> rfl

/-- Between roots a session is at depth 0. -/
private theorem depth_after (h : s.position.depth = 0) (ts : List TypeId) :
    (s.after ts).position.depth = 0 := by
  -- the invariant holds whether a root is unknown, fails or comes to a node
  induction ts generalizing s with
  | nil => exact h
  | cons t ts ih =>
    apply ih
    cases hd : s.catalog.get? t with
    | none =>
      rw [compileRoot, hd]
      exact h
    | some d =>
      rw [position_compileRoot hd]
      cases (s.compileRoot t).1 <;> rfl

/-- The cursor comes back from each of some roots. -/
private theorem movedAfter_eq (hs : walkers.map (·.strategy) = s.compiler.strategies)
    (hwalkers : ∀ w ∈ walkers, w ∈ Walker.standard) (ts : List TypeId) :
    s.movedAfter walkers ts = s.after ts := by
  induction ts generalizing s with
  | nil => rfl
  | cons t ts ih =>
    rw [movedAfter, moveRoot_eq hs hwalkers]
    -- the strategies are those of before, so the next cursor returns as well
    exact ih (by rw [(setting_compileRoot s t).2, hs])

/-- A field that fails reports a path that begins with the position of the session and the name of
the field. -/
private theorem path?_dispatchField
    (hstandard : ∀ s' ∈ s.compiler.strategies, s' ∈ Strategy.standard) {f : Field}
    {e : CompileError} (herror : (s.dispatchField f).1 = .error e) :
    ∃ names, e.path? = some (Position.pathText (s.position.path ++ f.name :: names)) := by
  let path := (s.position.enter f.name).path
  -- all that is met below the field has the path of the field in front
  have hmeets := Walk.meets_visit (S := s.setting) (P := fun p _ => path <+: p.path) hstandard
    (HandedDown.of_prefix s.catalog s.compiler.policy path) (List.prefix_refl path)
    (s.compiler.options.maxDepth - s.position.depth) s.build
  obtain ⟨p, _, ⟨names, hnames⟩, hpath⟩ := hmeets.named e herror
  have hlist : p.path = s.position.path ++ f.name :: names := by
    rw [← hnames]
    show (s.position.path ++ [f.name]) ++ names = _
    rw [List.append_assoc, List.singleton_append]
  exact ⟨names, by rw [hpath, Position.text, hlist]⟩

/-- Where a session stands after some roots, with some of the standard strategies.  It is never
anywhere but at depth 0.  Its position is empty if none of the roots was of the catalog, or the last
of them that was came to a node; if that one failed, it is still there, whatever types of other
catalogs came after it.  A field that fails then reports a path that begins there. -/
theorem position_after_roots {strategies : List Strategy}
    (hstandard : ∀ s ∈ strategies, s ∈ Strategy.standard) (policy : FieldPolicy)
    (options : Options) (c : Catalog) (ts : List TypeId) :
    let fresh := ({ strategies, policy, options } : Compiler).session c
    let s := fresh.after ts
    (∃ walkers, walkers.map (·.strategy) = strategies ∧ (∀ w ∈ walkers, w ∈ Walker.standard) ∧
      fresh.movedAfter walkers ts = s) ∧
    s.position.depth = 0 ∧
    ((∀ t ∈ ts, c.get? t = none) → s.position = {}) ∧
    (∀ front t back d, ts = front ++ t :: back → c.get? t = some d →
      (∀ u ∈ back, c.get? u = none) →
      s.position = match ((fresh.after front).compileRoot t).1 with
        | .ok _ => {}
        | .error _ => .root d.simpleName) ∧
    ∀ f e, (s.dispatchField f).1 = .error e →
      ∃ names, e.path? = some (Position.pathText (s.position.path ++ f.name :: names)) := by
  intro fresh s
  -- in order: the cursors, the depth, no root of the catalog, the last such root, a field
  refine ⟨?_, depth_after rfl ts, fun hforeign => ?_, ?_, fun f e herror => ?_⟩
  · obtain ⟨walkers, hmap, hwalkers⟩ := Walker.exists_map_strategy hstandard
    exact ⟨walkers, hmap, hwalkers, movedAfter_eq hmap hwalkers ts⟩
  · show (fresh.after ts).position = {}
    rw [after_of_foreign hforeign]
    rfl
  · rintro front t back d rfl hd hback
    have hcatalog := (after_setting fresh front).1
    have hcatalog' := (setting_compileRoot (fresh.after front) t).1
    -- nothing changes behind the last root of the catalog
    have hlast : s = ((fresh.after front).compileRoot t).2 := by
      show fresh.after (front ++ t :: back) = _
      rw [after_append, after, after_of_foreign]
      rw [hcatalog', hcatalog]
      exact hback
    rw [hlast]
    apply position_compileRoot
    rw [hcatalog]
    exact hd
  -- from here on only the strategies of the session matter
  · have hkept : ∀ s' ∈ s.compiler.strategies, s' ∈ Strategy.standard := by
      rw [(after_setting fresh ts).2]
      exact hstandard
    exact path?_dispatchField hkept herror

/-- The path of a root that failed is not cleared, neither then nor by a type of another catalog,
and a field that fails later reports a path that begins with it. -/
theorem position_after_failed_root :
    let s := cyclicSession { maxDepth := 1 } [⟨12⟩, ⟨99⟩]
    Catalog.ofDecls cyclicDecls = .ok cyclicCatalog ∧
    ((cyclicSession { maxDepth := 1 } []).compileRoot ⟨12⟩).1 =
      .error (.tooDeep ["Person", "names", "items"] 1) ∧
    ((cyclicSession { maxDepth := 1 } [⟨12⟩]).compileRoot ⟨99⟩).1 = .error (.unknownType "#99") ∧
    s.position.path = ["Person"] ∧
    (s.dispatchField ownerField).1 = .error (.tooDeep ["Person", "owner", "items"] 1) := by
  refine ⟨ofDecls_cyclicDecls, ?_, ?_, ?_, ?_⟩ <;> decide +kernel

/-- After a record that fails and a type of another catalog, the session is still at the record.  If
a collection comes to its node after them, the position is empty. -/
theorem position_after_roots_cyclic :
    (∀ s ∈ Strategy.standard, s ∈ Strategy.standard) ∧
    (cyclicSession { maxDepth := 1 } [⟨12⟩, ⟨99⟩]).position = .root "Person" ∧
    (cyclicSession { maxDepth := 1 } [⟨12⟩, ⟨13⟩]).position = {} ∧
    ∃ names, (CompileError.tooDeep ["Person", "owner", "items"] 1).path? =
      some (Position.pathText ("Person" :: "owner" :: names)) := by
  -- unfolded, the sessions are those of the theorem as they stand, and are not run to compare them
  unfold cyclicSession
  have hstandard : ∀ s ∈ Strategy.standard, s ∈ Strategy.standard := fun _ hs => hs
  obtain ⟨_, _, _, hlast, hpath⟩ :=
    position_after_roots hstandard .accessible { maxDepth := 1 } cyclicCatalog [⟨12⟩, ⟨99⟩]
  obtain ⟨_, _, _, hlast', _⟩ :=
    position_after_roots hstandard .accessible { maxDepth := 1 } cyclicCatalog [⟨12⟩, ⟨13⟩]
  -- the last root of the catalog is the record here, and the collection there
  have hstands := hlast [] ⟨12⟩ [⟨99⟩] _ rfl rfl (by decide)
  have hcleared := hlast' [⟨12⟩] ⟨13⟩ [] _ rfl rfl (by decide)
  have hfailed : (((({ options := { maxDepth := 1 } } : Compiler).session cyclicCatalog).after
      []).compileRoot ⟨12⟩).1 = .error (.tooDeep ["Person", "names", "items"] 1) := by
    decide +kernel
  have hnode : (((({ options := { maxDepth := 1 } } : Compiler).session cyclicCatalog).after
      [⟨12⟩]).compileRoot ⟨13⟩).1 = .ok ⟨3⟩ := by decide +kernel
  have hfield : (((({ options := { maxDepth := 1 } } : Compiler).session cyclicCatalog).after
      [⟨12⟩, ⟨99⟩]).dispatchField ownerField).1 =
        .error (.tooDeep ["Person", "owner", "items"] 1) := by decide +kernel
  rw [hfailed] at hstands
  rw [hnode] at hcleared
  have hnames := hpath ownerField _ hfield
  rw [hstands] at hnames
  exact ⟨hstandard, hstands, hcleared, hnames⟩

end Schemata.Session
