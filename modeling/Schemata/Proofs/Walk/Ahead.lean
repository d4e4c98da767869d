import Schemata.Proofs.Walk.Order

/-!
# Walks that find more done

A walk that starts where some types are done already does less than one that starts from nothing.
If those types include all that they mention, both walks come to all other types at the same
positions, so the limit cannot cut off the one that has less to do.

## Key results

- `Ahead.run_known`: what a walk does below a type that is done elsewhere makes no difference
- `Runs.of_ahead`: where a walk from less ends well, a walk from more does too
-/

namespace Schemata

namespace Build

variable {S : Setting} {b b' : Build} {t u : TypeId}

/-! ## Stages, told by the search -/

/-- A type is absent when it has not been entered. -/
private theorem Sound.stage_eq_absent_iff (h : b.Sound S) :
    b.progress.stage t = .absent ↔ t ∉ b.search.entered := by
  refine ⟨h.notMem_entered, fun hnew => ?_⟩
  rw [Progress.stage_eq_absent_iff_notMem]
  exact ⟨fun hmem => hnew (h.mem_entered (.inl hmem)), fun hmem => hnew (h.mem_entered (.inr hmem))⟩

/-- A type that is completed is not being expanded. -/
theorem Sound.mem_completedTypes_iff (h : b.Sound S) :
    t ∈ b.progress.completedTypes ↔ t ∈ b.search.entered ∧ t ∉ b.progress.expandingTypes := by
  have hentered : t ∈ b.search.entered ↔ _ := h.recorded.types.mem_iff.symm
  rw [hentered, List.mem_append]
  constructor
  · intro hmem
    exact ⟨.inl hmem, fun hexpanding => h.recorded.consistent.not_both ⟨hmem, hexpanding⟩⟩
  · rintro ⟨hmem | hmem, hnot⟩
    · exact hmem
    · exact absurd hmem hnot

/-- A type is being expanded when it is listed as such. -/
private theorem Sound.stage_eq_expanding_iff (h : b.Sound S) :
    b.progress.stage t = .expanding ↔ t ∈ b.progress.expandingTypes :=
  h.recorded.consistent.stage_eq_expanding_iff

/-! ## Builds that are ahead -/

/-- `b'` is ahead of `b` by the types of `known`: the records among these are completed in it, and
it has come as far as `b` with all other types. -/
structure Ahead (S : Setting) (known : TypeId → Prop) (b b' : Build) : Prop where
  completed : ∀ {t}, known t → S.catalog.shape? t = some .record → t ∈ b'.progress.completedTypes
  entered : ∀ {t}, ¬ known t → (t ∈ b'.search.entered ↔ t ∈ b.search.entered)
  expanding : ∀ {t}, ¬ known t → (t ∈ b'.progress.expandingTypes ↔ t ∈ b.progress.expandingTypes)

namespace Ahead

variable {known : TypeId → Prop} {b₁ b₁' : Build}

/-- A build stays ahead while neither comes further with any type. -/
private theorem congr (h : Ahead S known b b') (hsearch : b₁.search = b.search)
    (hexpanding : b₁.progress.expandingTypes = b.progress.expandingTypes)
    (hsearch' : b₁'.search = b'.search)
    (hexpanding' : b₁'.progress.expandingTypes = b'.progress.expandingTypes) :
    Ahead S known b₁ b₁' where
  completed ht hrecord := by
    rw [show b₁'.progress.completedTypes = b'.progress.completedTypes from
      congrArg Search.finished hsearch']
    exact h.completed ht hrecord
  entered ht := by
    rw [hsearch, hsearch']
    exact h.entered ht
  expanding ht := by
    rw [hexpanding, hexpanding']
    exact h.expanding ht

private theorem visit (h : Ahead S known b b') (p : Position) (t : TypeId) :
    Ahead S known (b.visit p t) (b'.visit p t) := h.congr rfl rfl rfl rfl

private theorem store (h : Ahead S known b b') (n n' : Node) :
    Ahead S known (b.store n) (b'.store n') :=
  h.congr rfl rfl rfl rfl

private theorem refer (h : Ahead S known b b') (refPrefix : String) (id id' : NodeId) :
    Ahead S known (b.refer refPrefix id).2 (b'.refer refPrefix id').2 :=
  -- a reference at most is stored, which is no step of the search
  h.congr (search_refer b _ _) (by rw [progress_refer]) (search_refer b' _ _)
    (by rw [progress_refer])

private theorem defer (h : Ahead S known b b') (refPrefix : String) (t : TypeId) :
    Ahead S known (b.defer refPrefix t) (b'.defer refPrefix t) :=
  h.congr rfl Progress.expandingTypes_noted rfl Progress.expandingTypes_noted

private theorem setProperty (h : Ahead S known b b') (object object' child child' : NodeId)
    (name : String) :
    Ahead S known (b.setProperty object name child) (b'.setProperty object' name child') :=
  h.congr rfl rfl rfl rfl

private theorem openRecord (h : Ahead S known b b') (hb : b.Sound S) (hb' : b'.Sound S)
    (hstage : b.progress.stage t = .absent) (hstage' : b'.progress.stage t = .absent) :
    Ahead S known (b.openRecord S.catalog t) (b'.openRecord S.catalog t) where
  completed := h.completed
  entered {u} hu := by
    rw [hb.search_openRecord S.catalog hstage, hb'.search_openRecord S.catalog hstage']
    -- both searches enter the type, at the end
    simp only [Search.enter, List.mem_append, h.entered hu]
  expanding {u} hu := by
    show u ∈ (b'.progress.started t).expandingTypes ↔ u ∈ (b.progress.started t).expandingTypes
    simp only [Progress.expandingTypes_started, List.mem_append, h.expanding hu]

private theorem closeRecord (h : Ahead S known b b') (t : TypeId) (object object' : NodeId)
    (notes notes' : List Fixup) :
    Ahead S known (b.closeRecord t object notes) (b'.closeRecord t object' notes') where
  -- what was completed stays completed, whichever type is closed
  completed hu hrecord := by
    rw [show (b'.closeRecord t object' notes').progress.completedTypes = _ from
      congrArg Search.finished (search_closeRecord b' t object' notes')]
    exact List.mem_append_left _ (h.completed hu hrecord)
  entered {u} hu := by
    rw [search_closeRecord, search_closeRecord]
    exact h.entered hu
  expanding {u} hu := by
    show u ∈ (b'.progress.finished t object').expandingTypes ↔
      u ∈ (b.progress.finished t object).expandingTypes
    simp only [Progress.expandingTypes_finished, List.mem_filter, h.expanding hu]

/-- Records that are completed are completed in a build that is ahead. -/
private theorem mem_completedTypes (h : Ahead S known b b') (hb : b.Sound S) (hb' : b'.Sound S)
    (hshape : S.catalog.shape? t = some .record) (ht : t ∈ b.progress.completedTypes) :
    t ∈ b'.progress.completedTypes := by
  -- a known record is completed by assumption, any other has come as far in both builds
  by_cases hknown : known t
  · exact h.completed hknown hshape
  · rw [hb.mem_completedTypes_iff] at ht
    rw [hb'.mem_completedTypes_iff, h.entered hknown, h.expanding hknown]
    exact ht

/-- What a walk does below a type that is known makes no difference to the types that are not, since
the known types mention known types only. -/
theorem run_known (h : Ahead S known b b') (hc : S.catalog.Closed)
    (hpolicy : S.policy.Closed S.catalog)
    (hclosed : ∀ {t u}, known t → S.policy.Edge S.catalog t u → known u) {room : Nat}
    {p : Position} {id : NodeId} (hrun : Walk.Runs S (.type room p t) b (.ok id, b₁))
    (hhas : S.catalog.Has t) (ht : known t) : Ahead S known b₁ b' where
  completed := h.completed
  -- a name that was given in this run is the name of a type that the known type leads to
  entered {u} hu := by
    rw [h.entered hu]
    refine ⟨fun hmem => (hrun.extends.names.map Prod.fst).subset hmem, fun hmem => ?_⟩
    rcases hrun.reaches hc hpolicy (Walk.Task.within_type hhas) hmem with hold | ⟨v, hv, hreach⟩
    · exact hold
    · -- the type would be one that the known type leads to
      obtain rfl : v = t := List.mem_singleton.mp hv
      exact absurd (hreach.of_closed hclosed ht) hu
  expanding hu := by
    rw [h.expanding hu, hrun.expandingTypes_eq rfl]

/-- A record that is known is not expanded again. -/
private theorem exists_runs_of_known (h : Ahead S known b b') (hc : S.catalog.Closed)
    (hpolicy : S.policy.Closed S.catalog)
    (hclosed : ∀ {t u}, known t → S.policy.Edge S.catalog t u → known u) {room : Nat}
    {p : Position} {id : NodeId} (hrun : Walk.Runs S (.type room p t) b (.ok id, b₁))
    (hhas : S.catalog.Has t) (hrecord : S.catalog.isRecord t = true) (ht : known t) :
    ∃ id' b₁', Walk.Runs S (.type room p t) b' (.ok id', b₁') ∧ Ahead S known b₁ b₁' := by
  -- the record is looked up in the build that is ahead, while the other one expands it
  have hcompleted := h.completed ht (Catalog.shape?_of_isRecord hhas hrecord)
  obtain ⟨id', hnode⟩ := Option.isSome_iff_exists.mp (Progress.isSome_node?_iff.mpr hcompleted)
  have hahead := h.run_known hc hpolicy hclosed hrun hhas ht
  exact ⟨id', b'.visit p t, .known hrecord hnode, hahead.congr rfl rfl rfl rfl⟩

end Ahead

end Build

namespace Walk

variable {S : Setting} {task : Task} {b b' : Build} {r : Except CompileError NodeId × Build}

/-- The task with another object to give the fields to. -/
def Task.withObject (object : NodeId) : Task → Task
  | .fields room p _ fs => .fields room p object fs
  | .field room p f => .field room p f
  | .type room p t => .type room p t

/-- The fields of a record come to the object that they are given to. -/
private theorem Runs.fields_object {room : Nat} {p : Position} {object id : NodeId}
    {fs : List Field} (h : Runs S (.fields room p object fs) b (.ok id, b')) : id = object :=
  Walk.fields_object h.runOn_eq

/-- Where a walk ends well, a walk on a build that is ahead does too, and stays ahead. -/
theorem Runs.of_ahead {known : TypeId → Prop} (h : Runs S task b r) (hc : S.catalog.Closed)
    (hpolicy : S.policy.Closed S.catalog)
    (hclosed : ∀ {t u}, known t → S.policy.Edge S.catalog t u → known u)
    (htask : task.Within S.catalog) (hb : b.Sound S) (hready : task.Ready b) {id : NodeId}
    (hok : r.1 = .ok id) (hahead : Build.Ahead S known b b') (hb' : b'.Sound S) (object' : NodeId)
    (hready' : (task.withObject object').Ready b') :
    ∃ id' b₁', Runs S (task.withObject object') b' (.ok id', b₁') ∧
      Build.Ahead S known r.2 b₁' := by
  -- on the run; both walks have the same room, since they meet the same types at each position
  induction h generalizing b' object' id with
  | tooDeep | fieldFailed | elementsFailed | expansionFailed | fieldsFailed => exact nomatch hok
  | fieldPlain hrecord _ ih =>
    obtain ⟨id', b₁', hrun, hstays⟩ := ih htask hb trivial rfl hahead hb' object' trivial
    exact ⟨id', b₁', .fieldPlain hrecord hrun, hstays⟩
  -- references are made in both builds, perhaps to different nodes
  | fieldRecord hrecord _ ih =>
    obtain ⟨id', b₁', hrun, hstays⟩ := ih htask hb trivial rfl hahead hb' object' trivial
    exact ⟨_, _, .fieldRecord hrecord hrun, hstays.refer _ _ _⟩
  | scalar hshape => exact ⟨_, _, .scalar hshape, (hahead.visit _ _).store _ _⟩
  | enumeration hshape => exact ⟨_, _, .enumeration hshape, (hahead.visit _ _).store _ _⟩
  | unknownElements hshape => exact ⟨_, _, .unknownElements hshape, (hahead.visit _ _).store _ _⟩
  | @elements room p t b e items b₁ helement hitems ih =>
    obtain ⟨id', b₁', hrun, hstays⟩ := ih (Task.within_elements hc helement)
      ((Move.visit p t).sound hb) trivial rfl (hahead.visit p t) ((Move.visit p t).sound hb')
      object' trivial
    exact ⟨_, _, .elements helement hrun, hstays.store _ _⟩
  | @known room p t b id hrecord hnode =>
    -- the record is completed in the other build too, perhaps with another node
    have ht := htask t (List.mem_singleton_self t)
    have hcompleted := hahead.mem_completedTypes hb hb' (Catalog.shape?_of_isRecord ht hrecord)
      (Progress.isSome_node?_iff.mp (by rw [hnode]; rfl))
    obtain ⟨id', hnode'⟩ :=
      Option.isSome_iff_exists.mp (Progress.isSome_node?_iff.mpr hcompleted)
    exact ⟨id', _, .known hrecord hnode', hahead.visit p t⟩
  | @deferred room p t b hrecord hstage =>
    -- a record that is known is completed in the other build, and no placeholder is needed there
    by_cases ht : known t
    · exact hahead.exists_runs_of_known hc hpolicy hclosed (.deferred hrecord hstage)
        (htask t (List.mem_singleton_self t)) hrecord ht
    · rw [hb.stage_eq_expanding_iff, ← hahead.expanding ht, ← hb'.stage_eq_expanding_iff] at hstage
      exact ⟨_, _, .deferred hrecord hstage, (hahead.visit p t).defer _ t⟩
  | @expanded room p t b b₁ notes hrecord hstage hfields hnotes ih =>
    -- a record that is known is not expanded again, and any other is absent from both builds
    have hhas := htask t (List.mem_singleton_self t)
    by_cases ht : known t
    · exact hahead.exists_runs_of_known hc hpolicy hclosed (.expanded hrecord hstage hfields hnotes)
        hhas hrecord ht
    · have hstage' : b'.progress.stage t = .absent := by
        rw [hb'.stage_eq_absent_iff, hahead.entered ht, ← hb.stage_eq_absent_iff, hstage]
      obtain ⟨hopened, hopen⟩ := moves_openRecord hb p hrecord hstage
      obtain ⟨hopened', hopen'⟩ := moves_openRecord hb' p hrecord hstage'
      obtain ⟨object', b₁', hrun, hstays⟩ := ih (Task.within_listed hpolicy hhas)
        (sound_of_moves hopened hb) hopen rfl
        ((hahead.visit p t).openRecord ((Move.visit p t).sound hb) ((Move.visit p t).sound hb')
          hstage hstage')
        (sound_of_moves hopened' hb') b'.arena.next hopen'
      -- fields come to the object that they were given to, so each record is closed with its own
      obtain rfl := hrun.fields_object
      have hnotes' := hrun.isSome_notes?
        (by rw [Build.notes?_openRecord (b := b'.visit p t) S.catalog hstage']; rfl)
      obtain ⟨notes', hnotes'⟩ := Option.isSome_iff_exists.mp hnotes'
      exact ⟨_, _, .expanded hrecord hstage' hrun hnotes', hstays.closeRecord t _ _ _ _⟩
  | noFields => exact ⟨object', b', .noFields, hahead⟩
  | @nextField room p object f fs b child b₁ r hfield hrest ih ihrest =>
    -- the field first, then the property in both builds, then the other fields
    obtain ⟨child', b₁', hfield', hstays⟩ :=
      ih htask.head hb trivial rfl hahead hb' object' trivial
    obtain ⟨hset, hopen⟩ := move_setProperty (S := S)
      (Build.IsOpen.extends hready hfield.extends) f.name child
    obtain ⟨hset', hopen'⟩ := move_setProperty (S := S)
      (Build.IsOpen.extends hready' hfield'.extends) f.name child'
    obtain ⟨id', b₂', hrest', hend⟩ := ihrest htask.tail (hset.sound (hfield.sound hb trivial))
      hopen hok (hstays.setProperty _ object' child child' f.name)
      (hset'.sound (hfield'.sound hb' trivial)) object' hopen'
    exact ⟨id', b₂', .nextField hfield' hrest', hend⟩

end Walk

end Schemata
