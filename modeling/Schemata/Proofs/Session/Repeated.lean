import Schemata.Proofs.Schema
import Schemata.Proofs.Session.Finish
import Schemata.Proofs.Session.Grows
import Mathlib.Data.Prod.Basic

/-!
# Roots that are compiled again

A root that came to a node does so again, however many roots come in between.  Only a record is
looked up, though, and only one that was completed: then the node is the same, and no node is added.
A type of another shape is converted anew, container by container, and a record that an earlier root
left unfinished is put off once more.  In either case the new nodes are as many as there are
containers around the innermost type, and one for that type; no record is expanded again.

## Key results

- `Runs.settled`: what is left behind by a run that ends well
- `Runs.exists_again`: on such a build, a field is converted without entering a record
- `compileRoot_repeated`: the node of a root that is compiled again
-/

namespace Schemata

namespace Build

/-- The record inside a type, if there is one, was entered before. -/
def Entered (b : Build) (c : Catalog) (t : TypeId) : Prop :=
  c.isRecord (c.innermost t) = true → b.progress.stage (c.innermost t) ≠ .absent

/-- Some nodes were added, the last of which is `id`, and no record was entered or completed. -/
structure Adds (b : Build) (count : Nat) (id : NodeId) (b' : Build) : Prop where
  size : b'.arena.size = b.arena.size + count
  last : id.index + 1 = b'.arena.size
  completed : b'.progress.completed = b.progress.completed
  listed : b'.listed = b.listed

variable {b b' : Build} {c : Catalog} {t e : TypeId} {id : NodeId}

/-- What is inside a container is inside its elements. -/
private theorem entered_of_element? (hc : c.Closed) (h : c.element? t = some e) :
    b.Entered c t ↔ b.Entered c e := by
  rw [Entered, Entered, hc.innermost_of_some h]

/-- A record has been entered if it is no longer absent. -/
private theorem entered_of_isRecord (h : c.isRecord t = true) :
    b.Entered c t ↔ b.progress.stage t ≠ .absent := by
  -- a record has nothing inside, so its own stage decides
  rw [Entered, Catalog.innermost_of_none (Catalog.element?_of_isRecord h)]
  exact ⟨fun hentered => hentered h, fun hstage _ => hstage⟩

/-- There is no record inside a type that has no elements and is no record itself. -/
private theorem entered_of_shape? {s : Shape TypeId} (h : c.shape? t = some s)
    (hnone : s.element? = none) (hplain : c.isRecord t = false) : b.Entered c t := by
  have helement : c.element? t = none := (Catalog.element?_eq_of_shape? h).trans hnone
  intro hrecord
  rw [Catalog.innermost_of_none helement, hplain] at hrecord
  cases hrecord

/-- What was entered stays so while fix-ups and completed types are kept. -/
private theorem Entered.of_progress (h : b.Entered c t) (hprogress : b'.progress = b.progress) :
    b'.Entered c t := by
  rw [Entered, hprogress]
  exact h

namespace Adds

/-- A visit adds nothing, so what is added after it is what is added. -/
private theorem of_visit {count : Nat} {p : Position} (h : (b.visit p t).Adds count id b') :
    b.Adds count id b' where
  size := h.size
  last := h.last
  completed := h.completed
  listed := h.listed.trans (listed_visit b p t)

/-- A node is stored. -/
private theorem of_store (b : Build) (n : Node) : b.Adds 1 b.arena.next (b.store n) where
  size := Arena.size_push _ _
  last := (Arena.size_push _ _).symm
  completed := rfl
  listed := rfl

/-- A type is put off. -/
private theorem of_defer (b : Build) (refPrefix : String) (t : TypeId) :
    b.Adds 1 b.arena.next (b.defer refPrefix t) where
  size := Arena.size_push _ _
  last := (Arena.size_push _ _).symm
  completed := rfl
  listed := rfl

/-- After some nodes one more is stored. -/
private theorem store {count : Nat} (h : b.Adds count id b') (n : Node) :
    b.Adds (count + 1) b'.arena.next (b'.store n) where
  size := by
    show (b'.arena.push n).size = _
    rw [Arena.size_push, h.size, Nat.add_assoc]
  last := (Arena.size_push _ _).symm
  completed := h.completed
  listed := h.listed

end Adds

end Build

namespace Walk

variable {S : Setting} {task : Task} {b b' : Build} {r : Except CompileError NodeId × Build}
  {t : TypeId} {id : NodeId} {room : Nat} {p : Position}

/-! ## What a run that ends well leaves behind -/

/-- A task can be carried out without entering a record: the levels are enough for the containers,
and what is inside them was entered before. -/
def Task.Settled (S : Setting) (b : Build) : Task → Prop
  | .field room _ f => S.catalog.elementSteps f.type < room ∧ b.Entered S.catalog f.type
  | .type room _ t => S.catalog.elementSteps t ≤ room ∧ b.Entered S.catalog t
  | .fields .. => True

/-- A record is settled by any run that ends well. -/
private theorem Runs.settled_of_isRecord (h : Runs S (.type room p t) b (.ok id, b'))
    -- a record has no containers around it, so no level is needed
    (hrecord : S.catalog.isRecord t = true) : (Task.type room p t).Settled S b' := by
  refine ⟨?_, (Build.entered_of_isRecord hrecord).mpr fun habsent => ?_⟩
  · rw [Catalog.elementSteps_of_none (Catalog.element?_of_isRecord hrecord)]
    exact Nat.zero_le _
  -- after the run it is completed or waits, and in neither case absent
  · obtain ⟨hnode, hnotes⟩ := Progress.stage_eq_absent_iff_notMem.mp habsent
    rcases h.completed_or_awaits hrecord with hcompleted | ⟨notes, hsome, _⟩
    · exact hnode (List.mem_map.mpr ⟨_, hcompleted, rfl⟩)
    · exact hnotes (Progress.mem_expandingTypes_of_notes hsome)

/-- After a run that ends well, its task can be carried out without entering a record. -/
theorem Runs.settled (h : Runs S task b r) (hc : S.catalog.Closed) (hok : r.1 = .ok id) :
    task.Settled S r.2 := by
  -- on the run, down to the type inside all containers; a record is settled by its own stage
  induction h generalizing id with
  | tooDeep | fieldFailed | elementsFailed | expansionFailed | fieldsFailed => exact nomatch hok
  | noFields | nextField => trivial
  | fieldPlain _ _ ih =>
    -- a field takes one level more than its type
    obtain ⟨hsteps, hentered⟩ := ih rfl
    exact ⟨Nat.lt_succ_of_le hsteps, hentered⟩
  | fieldRecord _ _ ih =>
    obtain ⟨hsteps, hentered⟩ := ih rfl
    exact ⟨Nat.lt_succ_of_le hsteps, hentered.of_progress (Build.progress_refer _ _ _)⟩
  -- these have nothing inside, and take no level
  | scalar hshape | enumeration hshape | unknownElements hshape =>
    have hnone := Catalog.element?_eq_of_shape? hshape
    refine ⟨?_, Build.entered_of_shape? hshape rfl (by rw [Catalog.isRecord, hshape])⟩
    rw [Catalog.elementSteps_of_none hnone]
    exact Nat.zero_le _
  | elements helement _ ih =>
    -- elements were settled one level further down
    obtain ⟨hsteps, hentered⟩ := ih rfl
    refine ⟨?_, (Build.entered_of_element? hc helement).mpr hentered⟩
    rw [hc.elementSteps_of_some helement]
    exact hsteps
  -- records: the run itself says that they were entered
  | known hrecord hnode => exact (Runs.known (p := _) hrecord hnode).settled_of_isRecord hrecord
  | deferred hrecord hstage => exact (Runs.deferred hrecord hstage).settled_of_isRecord hrecord
  | expanded hrecord hstage hfields hnotes =>
    exact (Runs.expanded hrecord hstage hfields hnotes).settled_of_isRecord hrecord

/-! ## Carrying out a settled task -/

/-- A type that is no record is converted anew, container by container, if its elements can be. -/
private theorem exists_again_of_plain (hc : S.catalog.Closed) (hb : b.Sound S)
    (hplain : S.catalog.isRecord t = false) (hsettled : (Task.type room p t).Settled S b)
    (hfield : ∀ f b, b.Sound S → (Task.field room p f).Settled S b →
      ∃ id b', Runs S (.field room p f) b (.ok id, b') ∧
        b.Adds (S.catalog.elementSteps f.type + 1) id b') :
    ∃ id b', Runs S (.type room p t) b (.ok id, b') ∧
      b.Adds (S.catalog.elementSteps t + 1) id b' := by
  obtain ⟨hsteps, hentered⟩ := hsettled
  -- on the shape, through its elements if it has any
  cases helement : S.catalog.element? t with
  | some e =>
    -- the elements are one level further down, and have one container less around them
    have hsucc := hc.elementSteps_of_some helement
    obtain ⟨items, b', hrun, hadds⟩ := hfield (.elements t e) (b.visit p t)
      ((Move.visit p t).sound hb)
      ⟨show S.catalog.elementSteps e < room by omega,
        (Build.entered_of_element? hc helement).mp hentered⟩
    rw [hsucc]
    -- the visit adds nothing, the container adds one node to those of its elements
    exact ⟨_, _, .elements helement hrun, hadds.of_visit.store _⟩
  | none =>
    rw [Catalog.elementSteps_of_none helement]
    cases hshape : S.catalog.shape? t with
    -- an unknown type would be a record by default
    | none =>
      rw [Catalog.isRecord, hshape] at hplain
      cases hplain
    | some s =>
      rw [Catalog.element?_eq_of_shape? hshape] at helement
      cases s with
      | scalar s => exact ⟨_, _, .scalar hshape, .of_visit (.of_store _ _)⟩
      | enumeration variants => exact ⟨_, _, .enumeration hshape, .of_visit (.of_store _ _)⟩
      | collection o =>
        cases helement
        exact ⟨_, _, .unknownElements hshape, .of_visit (.of_store _ _)⟩
      | array e => cases helement
      | record =>
        rw [Catalog.isRecord_of_shape? hshape] at hplain
        cases hplain

/-- On a sound build, a field that is settled is converted without entering a record. -/
theorem Runs.exists_again (hc : S.catalog.Closed) (hb : b.Sound S) {f : Field}
    (hsettled : (Task.field room p f).Settled S b) :
    ∃ id b', Runs S (.field room p f) b (.ok id, b') ∧
      b.Adds (S.catalog.elementSteps f.type + 1) id b' := by
  -- on the number of levels, one for each container
  induction room generalizing p f b with
  | zero => exact absurd hsettled.1 (Nat.not_lt_zero _)
  | succ room ih =>
    obtain ⟨hsteps, hentered⟩ := hsettled
    cases hrecord : S.catalog.isRecord f.type with
    | false =>
      obtain ⟨id, b', hrun, hadds⟩ := exists_again_of_plain (p := p.enter f.name) hc hb hrecord
        ⟨Nat.le_of_lt_succ hsteps, hentered⟩ fun _ _ hb hsettled => ih hb hsettled
      exact ⟨id, b', .fieldPlain hrecord hrun, hadds⟩
    | true =>
      rw [Catalog.elementSteps_of_none (Catalog.element?_of_isRecord hrecord)]
      cases hstage : b.progress.stage f.type with
      | absent => exact absurd hstage ((Build.entered_of_isRecord hrecord).mp hentered)
      | completed object =>
        -- the object is referred to, which takes one node
        have hnode := Progress.stage_eq_completed_iff.mp hstage
        obtain ⟨name, _, hbody⟩ := hb.recorded.node (mem_of_valueOf? hnode)
        refine ⟨_, _, .fieldRecord hrecord (.known hrecord hnode), ?_⟩
        rw [Build.refer_of_object (b := b.visit (p.enter f.name) f.type) _ hbody]
        exact .of_visit (.of_store _ _)
      | expanding =>
        -- the placeholder is a reference, and stands for itself
        have hbody : ((b.visit (p.enter f.name) f.type).defer S.options.refPrefix
            f.type).arena.body? b.arena.next = some (.reference none) := by
          show (b.store .placeholder).arena.body? b.arena.next = _
          rw [Build.body?_store, if_pos rfl]
          rfl
        refine ⟨_, _, .fieldRecord hrecord (.deferred hrecord hstage), ?_⟩
        rw [Build.refer_of_reference _ hbody]
        exact .of_visit (.of_defer _ _ _)

end Walk

/-! ## Roots -/

/-- What stands for a root is a node of the arena. -/
private theorem Build.HoldsRoot.index_lt {S : Setting} {b : Build} {t : TypeId} {id : NodeId}
    (h : b.HoldsRoot S t id) (hb : b.Sound S) : id.index < b.arena.size := by
  -- on whether the root is a record, which decides what holds it
  cases hrecord : S.catalog.isRecord t with
  | true =>
    rcases h.record hrecord with hcompleted | hawaits
    · exact hb.index_lt_of_completed hcompleted
    · exact Arena.index_lt_of_body? (hb.body?_of_awaits hawaits)
  | false =>
    -- every node that stands for a type is stored, whatever its shape
    cases h.plain hrecord with
    | scalar _ hnode | enumeration _ hnode | elements _ hnode | unknownElements _ hnode =>
      exact Arena.index_lt_of_get? hnode
    | record hsame =>
      rw [hrecord] at hsame
      cases hsame

namespace Session

variable {s s' : Session} {done : List TypeId} {t : TypeId} {id : NodeId}

/-- What was entered stays so when other roots are compiled. -/
private theorem Grows.entered (h : s.Grows s') {c : Catalog} (hentered : s.build.Entered c t) :
    s'.build.Entered c t := by
  intro hrecord habsent
  obtain ⟨hnode, hnotes⟩ := Progress.stage_eq_absent_iff.mp habsent
  refine hentered hrecord (Progress.stage_eq_absent_iff.mpr ⟨?_, ?_⟩)
  · cases hold : s.build.progress.node? (c.innermost t) with
    | none => rfl
    | some object => cases hnode.symm.trans (h.node?_eq _ _ hold)
  · cases hold : s.build.progress.notes? (c.innermost t) with
    | none => rfl
    | some notes =>
      obtain ⟨more, hmore⟩ := h.notes _ _ hold
      cases hnotes.symm.trans hmore

/-- A root that comes to a node is settled, and a record is then completed with that node unless an
earlier root left it unfinished. -/
private theorem CompilesRoot.settled (h : CompilesRoot s t (.ok id, s')) (hc : s.catalog.Closed) :
    s.catalog.Has t ∧ s.catalog.elementSteps t ≤ s.compiler.options.maxDepth ∧
      s'.build.Entered s.catalog t ∧
      s'.build.progress.expandingTypes = s.build.progress.expandingTypes ∧
      (s.catalog.isRecord t = true →
        (t, id) ∈ s'.build.progress.completed ∨ t ∈ s'.build.progress.expandingTypes) := by
  cases h with
  | ok ht hrun =>
    obtain ⟨hsteps, hentered⟩ := hrun.settled hc rfl
    refine ⟨ht, hsteps, hentered, hrun.expandingTypes_eq rfl, fun hrecord => ?_⟩
    rcases hrun.completed_or_awaits hrecord with hcompleted | ⟨notes, hnotes, _⟩
    · exact .inl hcompleted
    · exact .inr (Progress.mem_expandingTypes_of_notes hnotes)

/-- A record that is completed comes to its node, and nothing is built. -/
private theorem compileRoot_known (hs : s.compiler.strategies = Strategy.standard)
    (ht : s.catalog.Has t) (hrecord : s.catalog.isRecord t = true)
    (hnode : s.build.progress.node? t = some id) :
    ∃ p s', s.compileRoot t = (.ok id, s') ∧ s'.build = s.build.visit p t := by
  obtain ⟨d, hd⟩ := Catalog.exists_get?_of_has ht
  exact ⟨_, _, compileRoot_eq hs hd (.known hrecord hnode), rfl⟩

/-- A root that is settled and is not looked up comes to a new node. -/
private theorem Sound.exists_again (h : s.Sound done) (hc : s.catalog.Closed) (ht : s.catalog.Has t)
    (hsteps : s.catalog.elementSteps t ≤ s.compiler.options.maxDepth)
    (hentered : s.build.Entered s.catalog t)
    (hnew : s.catalog.isRecord t = true → s.build.progress.stage t = .expanding) :
    ∃ again s', s.compileRoot t = (.ok again, s') ∧
      s.build.Adds (s.catalog.elementSteps t + 1) again s'.build := by
  obtain ⟨d, hd⟩ := Catalog.exists_get?_of_has ht
  cases hrecord : s.catalog.isRecord t with
  | false =>
    -- a root is converted like the type of a field, with all levels
    obtain ⟨again, b, hrun, hadds⟩ := Walk.exists_again_of_plain (p := .root d.simpleName) hc
      h.build hrecord ⟨hsteps, hentered⟩ fun _ _ hb hsettled =>
        Walk.Runs.exists_again hc hb hsettled
    exact ⟨again, _, compileRoot_eq h.strategies hd hrun, hadds⟩
  | true =>
    rw [Catalog.elementSteps_of_none (Catalog.element?_of_isRecord hrecord)]
    exact ⟨_, _, compileRoot_eq h.strategies hd (.deferred hrecord (hnew hrecord)),
      .of_visit (.of_defer _ _ _)⟩

/-- Whatever roots were compiled before and in between, also such as failed, a root that came to a
node does so again, and no record is expanded for it.  The node is the same, and no node is added,
if the root is a record that was not left unfinished before.  Else a node is added for each
container and one for the type inside of them, the last of which is the node of the root. -/
theorem compileRoot_repeated {decls : List TypeDecl} {c : Catalog}
    (hc : Catalog.ofDecls decls = .ok c) (options : Options) (ts us : List TypeId) {t : TypeId}
    {id : NodeId} {s' : Session}
    (hok : ((({ options } : Compiler).session c).after ts).compileRoot t = (.ok id, s')) :
    let s := (({ options } : Compiler).session c).after ts
    let later := s'.after us
    ∃ again s'', later.compileRoot t = (.ok again, s'') ∧
      s''.build.progress.completed = later.build.progress.completed ∧
      s''.build.listed = later.build.listed ∧
      (again = id ↔ c.isRecord t = true ∧ t ∉ s.build.progress.expandingTypes) ∧
      (again = id → s''.build.arena = later.build.arena) ∧
      (again ≠ id → again.index + 1 = s''.build.arena.size ∧
        s''.build.arena.size = later.build.arena.size + c.elementSteps t + 1) := by
  intro s later
  have hbegin := sound_session .accessible options c
  have hs : s.Sound _ := hbegin.after ts
  have hroot : CompilesRoot s t (.ok id, s') := hok ▸ compilesRoot hs.strategies t
  have hs' := hs.of_ok hroot
  have hlater : later.Sound _ := hs'.after us
  have hgrows : s'.Grows later := grows_after hs'.strategies us
  -- all of these sessions are on one catalog, with one compiler
  obtain ⟨hcatalog, hcompiler⟩ := after_setting (({ options } : Compiler).session c) ts
  obtain ⟨hcatalog', hcompiler'⟩ := hroot.setting_eq
  obtain ⟨hcatalog'', hcompiler''⟩ := after_setting s' us
  have hsame : s.catalog = c := hcatalog
  have hlaterCatalog : later.catalog = c := (hcatalog''.trans hcatalog').trans hcatalog
  have hlaterCompiler : later.compiler = s.compiler := hcompiler''.trans hcompiler'
  have hclosed : c.Closed := Catalog.closed_of_ofDecls hc
  obtain ⟨ht, hsteps, hentered, hexpanding, hstage⟩ := hroot.settled (hsame ▸ hclosed)
  rw [hsame] at ht hsteps hentered hstage
  -- the first node is older than all that the second compilation adds
  have hid : id.index < later.build.arena.size :=
    Arena.mem_ids_iff.mp (hgrows.mem_ids (Arena.mem_ids_iff.mpr
      ((hroot.holdsRoot hs.build).index_lt hs'.build)))
  by_cases hknown : c.isRecord t = true ∧ t ∉ s.build.progress.expandingTypes
  · -- the record was completed, and is looked up
    obtain ⟨hrecord, hnot⟩ := hknown
    have hcompleted := (hstage hrecord).resolve_right (hexpanding ▸ hnot)
    have hnode := hgrows.node?_eq t id (hs'.build.recorded.consistent.node?_eq_some_iff.mpr
      hcompleted)
    obtain ⟨p, s'', hcompile, hbuild⟩ := compileRoot_known hlater.strategies
      (hlaterCatalog ▸ ht) (hlaterCatalog ▸ hrecord) hnode
    refine ⟨id, s'', hcompile, ?_, ?_, iff_of_true rfl ⟨hrecord, hnot⟩, fun _ => ?_,
      fun hne => absurd rfl hne⟩ <;> rw [hbuild]
    · rfl
    · exact Build.listed_visit _ _ _
    · rfl
  · -- the root is converted anew, or its placeholder is
    have hnew : c.isRecord t = true → later.build.progress.stage t = .expanding := by
      intro hrecord
      have hmem : t ∈ s'.build.progress.expandingTypes := by
        by_contra hnot
        exact hknown ⟨hrecord, hexpanding ▸ hnot⟩
      -- the fix-ups that were noted for it are there still, so it is being expanded still
      obtain ⟨notes, hnotes⟩ := Option.isSome_iff_exists.mp (Progress.isSome_notes?_iff.mpr hmem)
      obtain ⟨more, hmore⟩ := hgrows.notes t notes hnotes
      exact hlater.build.recorded.consistent.stage_of_notes hmore
    obtain ⟨again, s'', hcompile, hadds⟩ := hlater.exists_again (t := t) (hlaterCatalog ▸ hclosed)
      (hlaterCatalog ▸ ht) (by rw [hlaterCatalog, hlaterCompiler]; exact hsteps)
      (hlaterCatalog ▸ hgrows.entered hentered) (hlaterCatalog ▸ hnew)
    rw [hlaterCatalog] at hadds
    -- the node that comes last was not there before
    have hne : again ≠ id := by
      rintro rfl
      have hsize := hadds.size
      have hlast := hadds.last
      omega
    exact ⟨again, s'', hcompile, hadds.completed, hadds.listed, iff_of_false hne hknown,
      fun he => absurd he hne, fun _ => ⟨hadds.last, hadds.size⟩⟩

/-- A scalar that is compiled twice comes to two nodes. -/
theorem compileRoot_scalar_twice :
    Catalog.ofDecls cyclicDecls = .ok cyclicCatalog ∧
    ∃ id again, ((cyclicSession {} []).compileRoot ⟨9⟩).1 = .ok id ∧
      ((cyclicSession {} [⟨9⟩]).compileRoot ⟨9⟩).1 = .ok again ∧ again ≠ id ∧
      ((cyclicSession {} [⟨9⟩]).compileRoot ⟨9⟩).2.build.arena.size =
        (cyclicSession {} [⟨9⟩]).build.arena.size + 1 := by
  refine ⟨ofDecls_cyclicDecls, ⟨0⟩, ⟨1⟩, ?_, ?_, ?_, ?_⟩ <;> decide +kernel

/-- A record comes to its node again after a collection was compiled, and the collection of scalars
comes to new nodes, one for itself and one for its elements. -/
theorem compileRoot_repeated_cyclic :
    (∃ s'', (((cyclicSession {} []).compileRoot ⟨12⟩).2.after [⟨13⟩]).compileRoot ⟨12⟩ =
        (.ok ⟨0⟩, s'') ∧
      s''.build.arena = (((cyclicSession {} []).compileRoot ⟨12⟩).2.after [⟨13⟩]).build.arena) ∧
    ∃ again s'', ((cyclicSession {} []).compileRoot ⟨13⟩).2.compileRoot ⟨13⟩ = (.ok again, s'') ∧
      again ≠ ⟨1⟩ ∧
      s''.build.arena.size = ((cyclicSession {} []).compileRoot ⟨13⟩).2.build.arena.size + 2 := by
  -- unfolded, the sessions are those of the theorem as they stand, and are not run to compare them
  unfold cyclicSession
  have hrecord : (((({} : Compiler).session cyclicCatalog).after []).compileRoot ⟨12⟩).1 =
      .ok ⟨0⟩ := by decide +kernel
  have hcollection : (((({} : Compiler).session cyclicCatalog).after []).compileRoot ⟨13⟩).1 =
      .ok ⟨1⟩ := by decide +kernel
  obtain ⟨again, s, hagain, _, _, hsame, harena, _⟩ :=
    compileRoot_repeated ofDecls_cyclicDecls {} [] [⟨13⟩] (Prod.fst_eq_iff.mp hrecord)
  obtain ⟨other, s', hother, _, _, hdiffers, _, hsize⟩ :=
    compileRoot_repeated ofDecls_cyclicDecls {} [] [] (Prod.fst_eq_iff.mp hcollection)
  obtain rfl := hsame.mpr (by decide +kernel)
  have hne : other ≠ ⟨1⟩ := fun he => absurd (hdiffers.mp he).1 (by decide +kernel)
  exact ⟨⟨s, hagain, harena rfl⟩, other, s', hother, hne, (hsize hne).2⟩

end Session

end Schemata
