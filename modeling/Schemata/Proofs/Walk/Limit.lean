import Schemata.Proofs.Walk.Runs

/-!
# Limits cut walks off

A walk that comes to its end writes down the sites that it met, in order.  Under another limit the
same walk is taken up to the first site that is deeper than that limit, and fails there; if there is
no such site, nothing is different.

## Key results

- `Runs.exists_sites`: what a run that ends well meets, and how it ends under another limit
- `IsSite.length_path`: how deep the places are that a walk can come to
-/

namespace Schemata

/-- The places that compiling roots can come to: the roots themselves, the fields of records, and
the elements of containers, one level below their container and under a name of their own. -/
inductive IsSite (c : Catalog) (policy : FieldPolicy) (roots : List TypeId) :
    Position → TypeId → Prop where
  | root {t d} (ht : t ∈ roots) (hd : c.get? t = some d) :
      IsSite c policy roots (.root d.simpleName) t
  | field {p t f} (h : IsSite c policy roots p t) (hrecord : c.isRecord t = true)
      (hf : f ∈ policy c t) : IsSite c policy roots (p.enter f.name) f.type
  | elements {p t e} (h : IsSite c policy roots p t) (helement : c.element? t = some e) :
      IsSite c policy roots (p.enter "items") e

/-- A site has a name for its root, and one for each level below that. -/
theorem IsSite.length_path {c : Catalog} {policy : FieldPolicy} {roots : List TypeId} {p : Position}
    {t : TypeId} (h : IsSite c policy roots p t) : p.path.length = p.depth + 1 := by
  induction h with
  | root => rfl
  | field _ _ _ ih | elements _ _ ih =>
    rw [Position.path_enter, Position.depth_enter, List.length_append, ih]
    rfl

/-- The first of some sites that is deeper than a limit. -/
def firstBeyond (limit : Nat) (sites : List (Position × TypeId)) : Option Position :=
  (sites.find? fun site => limit < site.1.depth).map (·.1)

section Beyond

variable {limit : Nat} {sites sites' : List (Position × TypeId)} {p : Position} {t : TypeId}

theorem firstBeyond_eq_none_iff :
    firstBeyond limit sites = none ↔ ∀ site ∈ sites, site.1.depth ≤ limit := by
  rw [firstBeyond, Option.map_eq_none_iff, List.find?_eq_none]
  simp only [decide_eq_true_eq, Nat.not_lt]

/-- The first site beyond a limit is one of the sites. -/
theorem exists_of_firstBeyond (h : firstBeyond limit sites = some p) : ∃ t, (p, t) ∈ sites := by
  obtain ⟨site, hsite, rfl⟩ := Option.map_eq_some_iff.mp h
  exact ⟨site.2, List.mem_of_find?_eq_some hsite⟩

/-- The sites are looked at in order. -/
theorem firstBeyond_append : firstBeyond limit (sites ++ sites') =
    (firstBeyond limit sites).or (firstBeyond limit sites') := by
  rw [firstBeyond, List.find?_append, Option.map_or, firstBeyond, firstBeyond]

/-- A site within the limit is passed over. -/
private theorem firstBeyond_cons (h : p.depth ≤ limit) :
    firstBeyond limit ((p, t) :: sites) = firstBeyond limit sites := by
  rw [firstBeyond, List.find?_cons_of_neg, firstBeyond]
  simp only [decide_eq_true_eq]
  omega

/-- A site beyond the limit is the first one if it comes first. -/
private theorem firstBeyond_cons_of_lt (h : limit < p.depth) :
    firstBeyond limit ((p, t) :: sites) = some p := by
  rw [firstBeyond, List.find?_cons_of_pos]
  · rfl
  · exact decide_eq_true h

end Beyond

/-! ## Sites in the log -/

namespace Build

/-- A visit is logged as a site, and nothing else is. -/
@[simp]
theorem visited_visit (b : Build) (p : Position) (t : TypeId) :
    (b.visit p t).visited = b.visited ++ [(p, t)] := by
  simp [visited, visit]

@[simp]
theorem visited_store (b : Build) (n : Node) : (b.store n).visited = b.visited := rfl

@[simp]
theorem visited_openRecord (b : Build) (c : Catalog) (t : TypeId) :
    (b.openRecord c t).visited = b.visited := by
  simp [visited, openRecord]

@[simp]
theorem visited_setProperty (b : Build) (object : NodeId) (name : String) (child : NodeId) :
    (b.setProperty object name child).visited = b.visited := rfl

@[simp]
theorem visited_closeRecord (b : Build) (t : TypeId) (object : NodeId) (notes : List Fixup) :
    (b.closeRecord t object notes).visited = b.visited := by
  simp [visited, closeRecord, List.filterMap_map]

@[simp]
theorem visited_refer (b : Build) (refPrefix : String) (id : NodeId) :
    (b.refer refPrefix id).2.visited = b.visited := by
  rcases b.refer_eq_or_store refPrefix id with h | ⟨n, h⟩ <;> rw [h]
  exact visited_store b n

end Build

/-- A setting with another limit. -/
def Setting.limited (S : Setting) (limit : Nat) : Setting :=
  { S with options := { S.options with maxDepth := limit } }

namespace Walk

variable {S : Setting} {task : Task} {b : Build} {r : Except CompileError NodeId × Build}

namespace Task

/-- Where a task stands. -/
def position : Task → Position
  | .field _ p _ | .type _ p _ | .fields _ p _ _ => p

/-- A task with the levels that another limit leaves below its position. -/
def limited (limit : Nat) : Task → Task
  | .field _ p f => .field (limit - p.depth) p f
  | .type _ p t => .type (limit - p.depth) p t
  | .fields _ p object fs => .fields (limit - p.depth) p object fs

end Task

/-- The first site that a task meets is its own. -/
def Task.Begins (sites : List (Position × TypeId)) : Task → Prop
  | .field _ p f => ∃ rest, sites = (p.enter f.name, f.type) :: rest
  | .type _ p t => ∃ rest, sites = (p, t) :: rest
  | .fields .. => True

/-- How a task ends under a limit, where `sites` are those that it meets under a limit that lets it
end as in `r`: it ends in the same way, or fails at the first site that is beyond the limit. -/
structure CutOff (S : Setting) (sites : List (Position × TypeId)) (task : Task) (b : Build)
    (r : Except CompileError NodeId × Build) : Prop where
  kept : firstBeyond S.options.maxDepth sites = none → Runs S task b r
  cut : ∀ p, firstBeyond S.options.maxDepth sites = some p →
    p.depth = S.options.maxDepth + 1 ∧
      ∃ b', Runs S task b (.error (.tooDeep p.path S.options.maxDepth), b')

namespace CutOff

variable {task' : Task} {b' : Build} {r' : Except CompileError NodeId × Build}
  {sites sites' : List (Position × TypeId)} {p : Position} {t : TypeId} {room limit : Nat}

/-- Where no site is met, no limit makes a difference. -/
theorem nil (h : Runs S task b r) : CutOff S [] task b r where
  kept _ := h
  cut _ hsome := nomatch hsome

/-- A task that fails as a part of it does is cut off where that part is. -/
theorem lift (h : CutOff S sites task b r) (hkept : Runs S task b r → Runs S task' b' r')
    (hcut : ∀ {e c}, Runs S task b (.error e, c) → ∃ c', Runs S task' b' (.error e, c')) :
    CutOff S sites task' b' r' where
  -- the part fails with the same error, and the task with it
  kept hnone := hkept (h.kept hnone)
  cut p hsome := by
    obtain ⟨hdepth, c, hrun⟩ := h.cut p hsome
    exact ⟨hdepth, hcut hrun⟩

/-- A site within the limit is passed over. -/
theorem passing (h : CutOff S sites task b r) (hp : p.depth ≤ S.options.maxDepth) (t : TypeId) :
    CutOff S ((p, t) :: sites) task b r where
  kept hnone := h.kept (by rwa [firstBeyond_cons hp] at hnone)
  cut p' hsome := h.cut p' (by rwa [firstBeyond_cons hp] at hsome)

/-- A field is cut off where its type is, or at its own site if no level is left for it. -/
theorem field {f : Field} (hp : p.depth ≤ limit)
    (hsites : ∃ rest, sites = (p.enter f.name, f.type) :: rest)
    (h : (p.enter f.name).depth ≤ limit → CutOff (S.limited limit) sites
      (.type (limit - (p.enter f.name).depth) (p.enter f.name) f.type) b r)
    (hkept : ∀ room, Runs (S.limited limit) (.type room (p.enter f.name) f.type) b r →
      Runs (S.limited limit) (.field (room + 1) p f) b r') :
    CutOff (S.limited limit) sites (.field (limit - p.depth) p f) b r' := by
  rw [Position.depth_enter] at h
  -- whether the limit leaves a level for the field
  by_cases hlt : p.depth < limit
  · have hroom : limit - p.depth = limit - (p.depth + 1) + 1 := by omega
    rw [hroom]
    exact (h hlt).lift (hkept _) fun hrun => ⟨_, .fieldFailed hrun⟩
  · -- the field is the first site that is too deep
    obtain rfl : p.depth = limit := by omega
    obtain ⟨rest, rfl⟩ := hsites
    have hfirst : firstBeyond p.depth ((p.enter f.name, f.type) :: rest) = some (p.enter f.name) :=
      firstBeyond_cons_of_lt (Nat.lt_succ_self _)
    constructor
    case kept =>
      intro hnone
      cases hfirst.symm.trans hnone
    case cut =>
      intro p' hsome
      obtain rfl := Option.some.inj (hfirst.symm.trans hsome)
      rw [Nat.sub_self]
      exact ⟨rfl, b, .tooDeep⟩

/-- Fields are cut off in the first one that is, if any. -/
theorem next {object child : NodeId} {f : Field} {fs : List Field}
    (hfield : CutOff S sites (.field room p f) b (.ok child, b'))
    (hrest : CutOff S sites' (.fields room p object fs) (b'.setProperty object f.name child) r) :
    CutOff S (sites ++ sites') (.fields room p object (f :: fs)) b r where
  kept hnone := by
    rw [firstBeyond_append, Option.or_eq_none_iff] at hnone
    exact .nextField (hfield.kept hnone.1) (hrest.kept hnone.2)
  cut p' hsome := by
    rw [firstBeyond_append] at hsome
    -- either the first field has a site that is too deep, or all its sites are passed
    cases hfirst : firstBeyond S.options.maxDepth sites with
    | some q =>
      rw [hfirst, Option.some_or] at hsome
      cases hsome
      obtain ⟨hdepth, c, hrun⟩ := hfield.cut _ hfirst
      exact ⟨hdepth, c, .fieldsFailed hrun⟩
    | none =>
      rw [hfirst, Option.none_or] at hsome
      obtain ⟨hdepth, c, hrun⟩ := hrest.cut p' hsome
      exact ⟨hdepth, c, .nextField (hfield.kept hfirst) hrun⟩

/-- A type that is converted on its own is met, and nothing else. -/
theorem leaf (hvisited : r.2.visited = b.visited ++ [(p, t)])
    (hrun : ∀ room, Runs (S.limited limit) (.type room p t) b r) :
    ∃ sites, r.2.visited = b.visited ++ sites ∧ (Task.type room p t).Begins sites ∧
      (p.depth ≤ limit →
        CutOff (S.limited limit) sites (.type (limit - p.depth) p t) b r) :=
  ⟨[(p, t)], hvisited, ⟨[], rfl⟩, fun hp =>
    (nil (hrun _)).passing (show p.depth ≤ (S.limited limit).options.maxDepth from hp) t⟩

end CutOff

/-- A run that ends well meets sites, of which its own is the first, and under another limit it is
cut off by these. -/
theorem Runs.exists_sites (h : Runs S task b r) {id : NodeId} (hok : r.1 = .ok id) (limit : Nat) :
    ∃ sites, r.2.visited = b.visited ++ sites ∧ task.Begins sites ∧
      (task.position.depth ≤ limit →
        CutOff (S.limited limit) sites (task.limited limit) b r) := by
  -- on the run; the sites of a task are its own and those of its parts
  induction h generalizing id with
  | tooDeep | fieldFailed | elementsFailed | expansionFailed | fieldsFailed => exact nomatch hok
  | fieldPlain hrecord _ ih =>
    cases hok
    obtain ⟨sites, hvisited, hbegins, hcut⟩ := ih rfl
    exact ⟨sites, hvisited, hbegins, fun hp => .field hp hbegins hcut fun _ hrun =>
      .fieldPlain hrecord hrun⟩
  | fieldRecord hrecord _ ih =>
    cases hok
    obtain ⟨sites, hvisited, hbegins, hcut⟩ := ih rfl
    refine ⟨sites, ?_, hbegins, fun hp => .field hp hbegins hcut fun _ hrun =>
      .fieldRecord hrecord hrun⟩
    rw [Build.visited_refer, hvisited]
  | scalar hshape => exact CutOff.leaf (Build.visited_visit _ _ _) fun _ => .scalar hshape
  | enumeration hshape => exact CutOff.leaf (Build.visited_visit _ _ _) fun _ => .enumeration hshape
  | unknownElements hshape =>
    exact CutOff.leaf (Build.visited_visit _ _ _) fun _ => .unknownElements hshape
  | known hrecord hnode =>
    exact CutOff.leaf (Build.visited_visit _ _ _) fun _ => .known hrecord hnode
  | deferred hrecord hstage =>
    exact CutOff.leaf (Build.visited_visit _ _ _) fun _ => .deferred hrecord hstage
  | @elements room p t b e items b' helement _ ih =>
    cases hok
    obtain ⟨sites, hvisited, _, hcut⟩ := ih rfl
    -- the container itself is met before its elements
    refine ⟨(p, t) :: sites, ?_, ⟨sites, rfl⟩, fun hp => ?_⟩
    · rw [Build.visited_store, hvisited, Build.visited_visit, List.append_assoc]
      rfl
    · exact ((hcut hp).lift (.elements helement) fun hrun =>
        ⟨_, .elementsFailed helement hrun⟩).passing hp t
  | @expanded room p t b b' notes hrecord hstage _ hnotes ih =>
    cases hok
    obtain ⟨sites, hvisited, _, hcut⟩ := ih rfl
    -- the record itself is met before its fields
    refine ⟨(p, t) :: sites, ?_, ⟨sites, rfl⟩, fun hp => ?_⟩
    · rw [Build.visited_closeRecord, hvisited, Build.visited_openRecord, Build.visited_visit,
        List.append_assoc]
      rfl
    · exact ((hcut hp).lift (.expanded hrecord hstage · hnotes) fun hrun =>
        ⟨_, .expansionFailed hrecord hstage hrun⟩).passing hp t
  | noFields => exact ⟨[], (List.append_nil _).symm, trivial, fun _ => .nil .noFields⟩
  | nextField _ _ ih ihrest =>
    obtain ⟨sites, hvisited, _, hcut⟩ := ih rfl
    obtain ⟨sites', hvisited', _, hcut'⟩ := ihrest hok
    -- the later fields begin with what the first one has met
    refine ⟨sites ++ sites', ?_, trivial, fun hp => (hcut hp).next (hcut' hp)⟩
    rw [hvisited', Build.visited_setProperty, hvisited, List.append_assoc]

end Walk

end Schemata
