import Schemata.Proofs.Session.Roots

/-!
# Sessions only grow

A root that is compiled adds to the session, whether it comes to a node or fails.  What a fix-up of
an earlier root waits for is never written: a record that was left unfinished is not completed by a
later root, and a run changes no node that was stored before it.

## Key results

- `CompilesRoot.grows`: one root
- `grows_after`: any roots, one after the other
- `compileRoot_only_adds`: what a root adds to any session
-/

namespace Schemata

namespace Session

/-- `s'` comes from `s` by additions: nodes, completed types, names and roots stay as they are. -/
structure Grows (s s' : Session) : Prop where
  nodes : ∀ id ∈ s.build.arena.ids, s'.build.arena.get? id = s.build.arena.get? id
  /-- Types completed since come last, and have new nodes. -/
  completed : ∃ new, s'.build.progress.completed = s.build.progress.completed ++ new ∧
    ∀ e ∈ new, e.2 ∉ s.build.arena.ids
  node?_eq : ∀ t id, s.build.progress.node? t = some id → s'.build.progress.node? t = some id
  /-- The fix-ups of a type that was left unfinished wait on. -/
  notes : ∀ t ns, s.build.progress.notes? t = some ns →
    ∃ more, s'.build.progress.notes? t = some (ns ++ more)
  name?_eq : ∀ t name, s.build.names.name? t = some name → s'.build.names.name? t = some name
  roots : s.roots <+: s'.roots

namespace Grows

variable {s s' s'' : Session}

private theorem refl (s : Session) : s.Grows s where
  nodes _ _ := rfl
  completed := ⟨[], (List.append_nil _).symm, fun _ he => nomatch he⟩
  node?_eq _ _ h := h
  notes _ ns h := ⟨[], by rw [List.append_nil, h]⟩
  name?_eq _ _ h := h
  roots := List.prefix_rfl

/-- A place that is in use stays in use. -/
theorem mem_ids (h : s.Grows s') {id : NodeId} (hid : id ∈ s.build.arena.ids) :
    id ∈ s'.build.arena.ids := by
  obtain ⟨n, hn⟩ := Arena.exists_get?_of_lt (Arena.mem_ids_iff.mp hid)
  exact Arena.mem_ids_iff.mpr (Arena.index_lt_of_get? ((h.nodes id hid).trans hn))

private theorem trans (h : s.Grows s') (h' : s'.Grows s'') : s.Grows s'' where
  nodes id hid := (h'.nodes id (h.mem_ids hid)).trans (h.nodes id hid)
  -- completed types are appended, so those of the second step come after those of the first
  completed := by
    obtain ⟨new, hnew, hfresh⟩ := h.completed
    obtain ⟨new', hnew', hfresh'⟩ := h'.completed
    refine ⟨new ++ new', by rw [hnew', hnew, List.append_assoc], fun e he hold => ?_⟩
    rcases List.mem_append.mp he with he | he
    · exact hfresh e he hold
    · exact hfresh' e he (h.mem_ids hold)
  node?_eq t id hid := h'.node?_eq t id (h.node?_eq t id hid)
  notes t ns hns := by
    obtain ⟨more, hmore⟩ := h.notes t ns hns
    obtain ⟨more', hmore'⟩ := h'.notes t (ns ++ more) hmore
    exact ⟨more ++ more', by rw [hmore', List.append_assoc]⟩
  name?_eq t name hname := h'.name?_eq t name (h.name?_eq t name hname)
  roots := h.roots.trans h'.roots

/-- A build that is extended makes a session grow. -/
private theorem of_extends {refPrefix : String} (h : s.build.Extends refPrefix none s'.build)
    (hroots : s.roots <+: s'.roots) : s.Grows s' where
  nodes _ hid := h.get?_eq (Arena.mem_ids_iff.mp hid) fun he => nomatch he
  completed := by
    -- a completed type has a node that was stored after the earlier ones
    obtain ⟨new, hnew, hle⟩ := h.completed
    refine ⟨new, hnew, fun e he hold => ?_⟩
    have hlt := Arena.mem_ids_iff.mp hold
    have := hle e he
    omega
  node?_eq t id hid := by
    -- lookup finds the first entry, and the earlier entries come first
    obtain ⟨new, hnew, _⟩ := h.completed
    exact valueOf?_of_prefix ⟨new, hnew.symm⟩ hid
  notes t ns hns := by
    obtain ⟨ids, hids, _⟩ := h.notes hns
    exact ⟨_, hids⟩
  name?_eq t name hname := NameTable.name?_of_prefix h.names hname
  roots := hroots

end Grows

variable {s : Session} {t : TypeId}

/-- A session grows with each root, and the roots by its node. -/
theorem CompilesRoot.grows {r : Except CompileError NodeId × Session} (h : CompilesRoot s t r) :
    s.Grows r.2 ∧ r.2.roots = s.roots ++ r.1.toOption.toList := by
  -- a failed root has extended the build too, and has added no root
  cases h with
  | unknown => exact ⟨.refl s, (List.append_nil _).symm⟩
  | ok _ hrun => exact ⟨.of_extends hrun.extends (List.prefix_append _ _), rfl⟩
  | failed _ hrun => exact ⟨.of_extends hrun.extends List.prefix_rfl, (List.append_nil _).symm⟩

/-- A session grows with any roots, one after the other. -/
theorem grows_after (hs : s.compiler.strategies = Strategy.standard) (ts : List TypeId) :
    s.Grows (s.after ts) := by
  induction ts generalizing s with
  -- each root is compared with the session before it, and growth is transitive
  | nil => exact .refl s
  | cons t ts ih =>
    have hroot := compilesRoot hs t
    refine hroot.grows.1.trans (ih ?_)
    rw [hroot.setting_eq.2, hs]

/-- Whatever roots were compiled before, also such as failed, one root more leaves all nodes,
completed types, names and roots as they are, and so do any roots after it.  Types that it completes
come last, and the roots are those before and the node that it comes to, if it does not fail. -/
theorem compileRoot_only_adds (policy : FieldPolicy) (options : Options) (c : Catalog)
    (ts : List TypeId) (t : TypeId) :
    let s := (({ policy, options } : Compiler).session c).after ts
    s.Grows (s.compileRoot t).2 ∧
    (∀ id, (s.compileRoot t).1 = .ok id → (s.compileRoot t).2.roots = s.roots ++ [id]) ∧
    (∀ e, (s.compileRoot t).1 = .error e → (s.compileRoot t).2.roots = s.roots) ∧
    ∀ us, s.Grows (s.after us) := by
  intro s
  have hbegin := (sound_session policy options c).strategies
  have hs : s.compiler.strategies = Strategy.standard := by
    -- the strategies are those of the first session, however many roots came before
    rw [(after_setting _ ts).2, hbegin]
  obtain ⟨hgrows, hroots⟩ := (compilesRoot hs t).grows
  refine ⟨hgrows, fun id hid => ?_, fun e he => ?_, grows_after hs⟩
  · rw [hroots, hid]
    rfl
  · rw [hroots, he]
    exact List.append_nil _

end Session

end Schemata
