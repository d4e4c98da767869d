import Schemata.Proofs.Walk.Met

/-!
# Walks with some of the strategies

The standard strategies claim each type exactly once, so it makes no difference in which order they
are asked, or how often one of them is listed.  What a list of them leaves out does: the walk is
then taken as with all of them, up to the first site whose type no strategy of the list claims, and
fails there.

## Key results

- `select_of_claimed`: a type that is claimed is converted by its own strategy
- `Follows.bind`: what one action follows another in, two actions do
- `follows_convert` / `follows_visit`: a walk with some of the strategies follows the one with all
- `meets_visit`: what such a walk meets, and where it fails
-/

namespace Schemata

/-- Some strategy of a list claims a type. -/
def Claimed (strategies : List Strategy) (c : Catalog) (t : TypeId) : Prop :=
  ∃ s ∈ strategies, s.claims c t = true

instance (strategies : List Strategy) (c : Catalog) (t : TypeId) :
    Decidable (Claimed strategies c t) := by
  unfold Claimed
  infer_instance

/-! ## One strategy for each type -/

section Select

variable {strategies : List Strategy} {s : Strategy} {c : Catalog} {t : TypeId}

/-- A strategy that is selected is one of the list, and claims the type. -/
theorem claims_of_select (h : Strategy.select strategies c t = some s) :
    s ∈ strategies ∧ s.claims c t = true :=
  ⟨List.mem_of_find?_eq_some h, List.find?_some (p := fun s : Strategy => s.claims c t) h⟩

/-- A standard strategy that claims a type is the one for its shape. -/
private theorem eq_strategyFor_of_claims (hs : s ∈ Strategy.standard)
    (hclaims : s.claims c t = true) : s = Walk.strategyFor c t := by
  have hcases : s = .scalar ∨ s = .array ∨ s = .collection ∨ s = .enumeration ∨ s = .record := by
    simpa [Strategy.standard] using hs
  rw [Walk.strategyFor]
  -- each strategy looks at the shape only, and two shapes are never of one kind
  rcases hcases with rfl | rfl | rfl | rfl | rfl <;> cases hshape : c.shape? t with
  | none => simp_all [Strategy.scalar, Strategy.array, Strategy.collection, Strategy.enumeration]
  | some shape =>
    cases shape <;>
      simp_all [Strategy.scalar, Strategy.array, Strategy.collection, Strategy.enumeration,
        Strategy.record]

/-- A type that is claimed is converted by its own strategy, wherever that is listed. -/
theorem select_of_claimed (hstandard : ∀ s ∈ strategies, s ∈ Strategy.standard)
    (h : Claimed strategies c t) :
    Strategy.select strategies c t = some (Walk.strategyFor c t) := by
  cases hselect : Strategy.select strategies c t with
  | none =>
    obtain ⟨s, hs, hclaims⟩ := h
    exact absurd hclaims (List.find?_eq_none.mp hselect s hs)
  | some s =>
    obtain ⟨hs, hclaims⟩ := claims_of_select hselect
    rw [eq_strategyFor_of_claims (hstandard s hs) hclaims]

/-- A type that no strategy claims is converted by none. -/
private theorem select_of_not_claimed (h : ¬ Claimed strategies c t) :
    Strategy.select strategies c t = none :=
  List.find?_eq_none.mpr fun s hs hclaims => h ⟨s, hs, hclaims⟩

end Select

/-! ## What is done alike, up to a site that no strategy claims -/

section Follows

variable {α β : Type} {strategies : List Strategy} {c : Catalog} {b : Build}

/-- How an action ends with some of the strategies, if it ends as in `r` with all of them: in the
same way if all the sites that it meets are claimed, and else with an error, at the first of them
that is not. -/
inductive Follows (strategies : List Strategy) (c : Catalog) (b : Build)
    (r : Except CompileError α × Build) : Except CompileError α × Build → Prop where
  | same (sites) (hmet : r.2.visited = b.visited ++ sites)
      (hclaimed : ∀ site ∈ sites, Claimed strategies c site.2) : Follows strategies c b r r
  | stopped (front) {p t} (back) {b'}
      (hmet : r.2.visited = b.visited ++ (front ++ (p, t) :: back))
      (hclaimed : ∀ site ∈ front, Claimed strategies c site.2) (hnot : ¬ Claimed strategies c t)
      (hstopped : b'.visited = b.visited ++ (front ++ [(p, t)])) :
      Follows strategies c b r (.error (.noStrategy p.path (c.name t)), b')

/-- Sites are only added, whichever strategies there are. -/
private theorem Follows.exists_sites {r r' : Except CompileError α × Build}
    (h : Follows strategies c b r r') : ∃ sites, r.2.visited = b.visited ++ sites := by
  cases h with
  | same _ hmet | stopped _ _ hmet => exact ⟨_, hmet⟩

/-- What meets no site is done with any strategies. -/
theorem Follows.of_visited {r : Except CompileError α × Build} (h : r.2.visited = b.visited) :
    Follows strategies c b r r :=
  .same [] (h.trans (List.append_nil _).symm) fun _ hsite => nomatch hsite

/-- What was met before, if it was all claimed, makes no difference. -/
private theorem Follows.of_claimed {b₁ : Build} {r r' : Except CompileError α × Build}
    {sites : List (Position × TypeId)} (h : Follows strategies c b₁ r r')
    (hmet : b₁.visited = b.visited ++ sites)
    (hclaimed : ∀ site ∈ sites, Claimed strategies c site.2) : Follows strategies c b r r' := by
  cases h with
  | same more hmore hclaimed' =>
    refine .same (sites ++ more) ?_ (List.forall_mem_append.mpr ⟨hclaimed, hclaimed'⟩)
    rw [hmore, hmet, List.append_assoc]
  | stopped front back hmore hclaimed' hnot hstopped =>
    refine .stopped (sites ++ front) back ?_
      (List.forall_mem_append.mpr ⟨hclaimed, hclaimed'⟩) hnot ?_
    · rw [hmore, hmet, List.append_assoc, List.append_assoc]
    · rw [hstopped, hmet, List.append_assoc, List.append_assoc]

/-- Actions that follow others, one after the other, follow those one after the other. -/
theorem Follows.bind {x x' : BuildM α} {f f' : α → BuildM β}
    (hx : Follows strategies c b (x.runOn b) (x'.runOn b))
    (hf : ∀ a b', x.runOn b = (.ok a, b') →
      Follows strategies c b' ((f a).runOn b') ((f' a).runOn b')) :
    Follows strategies c b ((x >>= f).runOn b) ((x' >>= f').runOn b) := by
  -- on how the first action ends with all strategies, and then on whether it was stopped
  generalize hrun' : x'.runOn b = r' at hx
  rcases hrun : x.runOn b with ⟨e | a, b₁⟩ <;> rw [hrun] at hx
  · -- an action that fails decides on the whole
    rw [BuildM.runOn_bind_error hrun]
    cases hx with
    | same sites hmet hclaimed =>
      rw [BuildM.runOn_bind_error hrun']
      exact .same sites hmet hclaimed
    | stopped front back hmet hclaimed hnot hstopped =>
      rw [BuildM.runOn_bind_error hrun']
      exact .stopped front back hmet hclaimed hnot hstopped
  · have hnext := hf a b₁ hrun
    rw [BuildM.runOn_bind_ok hrun]
    cases hx with
    | same _ hmet hclaimed =>
      rw [BuildM.runOn_bind_ok hrun']
      exact hnext.of_claimed hmet hclaimed
    | stopped front back hmet hclaimed hnot hstopped =>
      -- the second action is not reached; with all of the strategies it may meet more sites
      rw [BuildM.runOn_bind_error hrun']
      obtain ⟨more, hmore⟩ := hnext.exists_sites
      refine .stopped front (back ++ more) ?_ hclaimed hnot hstopped
      rw [hmore, hmet]
      simp only [List.append_assoc, List.cons_append]

/-- With some of the strategies no other sites are met, and an error names one of them. -/
private theorem Follows.meets {P : Position → TypeId → Prop} {lowest : Nat}
    {r r' : Except CompileError NodeId × Build} (hfollows : Follows strategies c b r r')
    (h : Meets P lowest b r) : Meets P lowest b r' := by
  -- a stopped action has met a part of the sites, and its error names the last of them
  cases hfollows with
  | same => exact h
  | @stopped front p t back b' hmet _ _ hstopped =>
    obtain ⟨met, hvisited, hall⟩ := h.met
    obtain rfl : met = front ++ (p, t) :: back := List.append_cancel_left (hvisited.symm.trans hmet)
    constructor
    case met =>
      refine ⟨front ++ [(p, t)], hstopped, fun site hsite => hall site ?_⟩
      rw [List.mem_append, List.mem_singleton] at hsite
      rw [List.mem_append, List.mem_cons]
      exact hsite.imp_right .inl
    case named =>
      intro e he
      cases he
      exact ⟨p, t, (hall (p, t) (List.mem_append_right _ List.mem_cons_self)).1, rfl⟩

end Follows

/-! ## What meets no site -/

section Visited

variable (c : Catalog) (scope : Scope) (t : TypeId) (b : Build)

/-- Starting a type meets no site. -/
private theorem visited_start : ((BuildM.start c t).runOn b).2.visited = b.visited := by
  rw [BuildM.start, BuildM.runOn_bind_ok (BuildM.runOn_get b)]
  cases b.progress.start t <;> rfl

/-- Neither does waiting for one. -/
private theorem visited_await (f : Fixup) :
    ((BuildM.await c t f).runOn b).2.visited = b.visited := by
  rw [BuildM.await, BuildM.runOn_bind_ok (BuildM.runOn_get b)]
  cases b.progress.await t f <;> rfl

/-- Nor does completing one, which only logs the fix-ups that were run. -/
private theorem visited_complete (id : NodeId) :
    ((BuildM.complete c t id).runOn b).2.visited = b.visited := by
  rw [BuildM.complete, BuildM.runOn_bind_ok (BuildM.runOn_get b)]
  cases hcomplete : b.progress.complete t id with
  | error e => rfl
  | ok p =>
    show Build.visited { b with
      progress := p.2
      arena := Fixup.runAll p.1 id b.arena
      log := b.log ++ (p.1.map fun f => Event.patched f id) } = _
    simp [Build.visited, List.filterMap_map]

/-- Asking for the fields is logged as such, and is no visit. -/
private theorem visited_listFields : ((scope.listFields t).runOn b).2.visited = b.visited := by
  show Build.visited { b with log := b.log.push (.listed t) } = _
  simp [Build.visited]

/-- A placeholder is stored and waits, and no site is met. -/
private theorem visited_placeholderFor :
    ((Strategy.placeholderFor scope t).runOn b).2.visited = b.visited := by
  unfold Strategy.placeholderFor
  rw [BuildM.runOn_bind_ok (BuildM.runOn_insert .placeholder b), BuildM.runOn_bind]
  have hawait := visited_await scope.catalog t { b with arena := b.arena.push .placeholder }
    { node := some b.arena.next, target := .named scope.options.refPrefix }
  -- the fix-up may be refused, which meets no site either
  split <;> rename_i heq <;> rw [heq] at hawait <;> exact hawait

end Visited

/-! ## Strategies follow strategies -/

namespace Walk

variable {strategies : List Strategy} {S : Setting} {p : Position} {t : TypeId}
  {visit visit' : Field → BuildM NodeId}

/-- What happens at a position, where fields are converted by `visit`. -/
abbrev scopeWith (S : Setting) (p : Position) (visit : Field → BuildM NodeId) : Scope :=
  { S with position := p, visit }

section Convert

variable (hvisit : ∀ f b, Follows strategies S.catalog b ((visit f).runOn b) ((visit' f).runOn b))

include hvisit

/-- The fields of a record are converted one after the other. -/
private theorem follows_fields (object : NodeId) (fs : List Field) (b : Build) :
    Follows strategies S.catalog b
      ((fs.forM fun f => do
        let child ← visit f
        BuildM.addProperty object f.name child).runOn b)
      ((fs.forM fun f => do
        let child ← visit' f
        BuildM.addProperty object f.name child).runOn b) := by
  induction fs generalizing b with
  | nil => exact .of_visited rfl
  | cons f fs ih =>
    simp only [List.forM_eq_forM, List.forM_cons]
    refine .bind (.bind (hvisit f b) fun child b' _ => ?_) fun _ b' _ => ih b'
    exact .of_visited rfl

/-- Expanding a record follows expanding it. -/
private theorem follows_expand (b : Build) :
    Follows strategies S.catalog b ((Strategy.expand (scopeWith S p visit) t).runOn b)
      ((Strategy.expand (scopeWith S p visit') t).runOn b) := by
  unfold Strategy.expand
  -- only the fields meet sites, and what comes before and after them is the same action
  refine .bind (.of_visited (visited_start S.catalog t b)) fun _ b _ => ?_
  refine .bind (.of_visited rfl) fun name b _ => ?_
  refine .bind (.of_visited rfl) fun id b _ => ?_
  refine .bind (.of_visited (visited_listFields (scopeWith S p visit) t b)) fun fs b _ => ?_
  refine .bind (follows_fields hvisit id fs b) fun _ b _ => ?_
  exact .bind (.of_visited (visited_complete S.catalog t b id)) fun _ b _ => .of_visited rfl

/-- So does converting a record, whatever its stage. -/
private theorem follows_convertRecord (b : Build) :
    Follows strategies S.catalog b ((Strategy.convertRecord (scopeWith S p visit) t).runOn b)
      ((Strategy.convertRecord (scopeWith S p visit') t).runOn b) := by
  unfold Strategy.convertRecord
  refine .bind (.of_visited rfl) fun stage b _ => ?_
  -- on the stage of the record, which both actions have looked up
  cases stage with
  | completed id => exact .of_visited rfl
  | expanding => exact .of_visited (visited_placeholderFor (scopeWith S p visit) t b)
  | absent => exact follows_expand hvisit b

/-- The elements of a container are converted as a field is. -/
private theorem follows_elements (f : Field) (b : Build) :
    Follows strategies S.catalog b
      ((do let items ← visit f; BuildM.insert (.array (some items)) : BuildM NodeId).runOn b)
      ((do let items ← visit' f; BuildM.insert (.array (some items)) : BuildM NodeId).runOn b) :=
  .bind (hvisit f b) fun _ _ _ => .of_visited rfl

/-- The strategy for a type converts it as its fields are converted. -/
theorem follows_convert (b : Build) :
    Follows strategies S.catalog b
      (((strategyFor S.catalog t).convert (scopeWith S p visit) t).runOn b)
      (((strategyFor S.catalog t).convert (scopeWith S p visit') t).runOn b) := by
  rw [strategyFor]
  cases hshape : S.catalog.shape? t with
  | none => exact follows_convertRecord hvisit b
  | some shape =>
    cases shape with
    | scalar s =>
      simp only [Strategy.scalar, hshape]
      exact .of_visited rfl
    | array e =>
      simp only [Strategy.array, hshape]
      exact follows_elements hvisit _ b
    | collection o =>
      cases o with
      | none =>
        simp only [Strategy.collection, hshape]
        exact .of_visited rfl
      | some e =>
        simp only [Strategy.collection, hshape]
        exact follows_elements hvisit _ b
    | enumeration variants =>
      simp only [Strategy.enumeration, hshape]
      exact .of_visited rfl
    | record => exact follows_convertRecord hvisit b

/-- So it does for a field; only a record is then referred to. -/
private theorem follows_convertField (f : Field) (b : Build) :
    Follows strategies S.catalog b
      (((strategyFor S.catalog f.type).convertField (scopeWith S p visit) f).runOn b)
      (((strategyFor S.catalog f.type).convertField (scopeWith S p visit') f).runOn b) := by
  -- only a record's field does more than convert the type
  cases hrecord : S.catalog.isRecord f.type with
  | false =>
    rw [convertField_eq hrecord, convertField_eq hrecord]
    exact follows_convert hvisit b
  | true =>
    rw [strategyFor_of_isRecord hrecord]
    refine .bind (follows_convertRecord hvisit b) fun id b _ => .of_visited ?_
    rw [BuildM.runOn_referTo]
    exact Build.visited_refer b _ id

end Convert

/-! ## Walks -/

/-- Coming to a type is the same if the type is claimed, and else the end. -/
private theorem follows_choose (hstandard : ∀ s ∈ strategies, s ∈ Strategy.standard) (t : TypeId)
    (b : Build) :
    Follows strategies S.catalog b
      ((Strategy.choose Strategy.standard (scopeWith S p visit) t).runOn b)
      ((Strategy.choose strategies (scopeWith S p visit') t).runOn b) := by
  have hmet : (b.visit p t).visited = b.visited ++ [(p, t)] := Build.visited_visit b p t
  rw [runOn_choose, Strategy.choose, BuildM.runOn_bind_ok (BuildM.runOn_record _ b)]
  by_cases hclaimed : Claimed strategies S.catalog t
  · rw [select_of_claimed hstandard hclaimed]
    exact .same [(p, t)] hmet fun site hsite => by rwa [List.mem_singleton.mp hsite]
  · rw [select_of_not_claimed hclaimed]
    -- no strategy claims this type, so this is the first such site
    exact .stopped [] [] hmet (List.forall_mem_nil _) hclaimed hmet

/-- Converting a field with some of the strategies follows converting it with all of them. -/
theorem follows_visit (hstandard : ∀ s ∈ strategies, s ∈ Strategy.standard) (room : Nat)
    (p : Position) (f : Field) (b : Build) :
    Follows strategies S.catalog b ((Walk.visit Strategy.standard S room p f).runOn b)
      ((Walk.visit strategies S room p f).runOn b) := by
  -- on the number of levels, as a walk is defined
  induction room generalizing p f b with
  | zero => exact .of_visited rfl
  | succ room ih =>
    unfold Walk.visit
    refine .bind (follows_choose hstandard f.type b) fun s b' hchoose => ?_
    rw [runOn_choose] at hchoose
    cases hchoose
    exact follows_convertField (ih (p.enter f.name)) f _

/-- So does converting a type. -/
theorem follows_dispatch (hstandard : ∀ s ∈ strategies, s ∈ Strategy.standard) (p : Position)
    (t : TypeId) (b : Build) :
    Follows strategies S.catalog b
      ((dispatch Strategy.standard (scopeAt Strategy.standard S p) t).runOn b)
      ((dispatch strategies (scopeAt strategies S p) t).runOn b) := by
  unfold dispatch
  refine .bind (follows_choose hstandard t b) fun s b' hchoose => ?_
  rw [runOn_choose] at hchoose
  cases hchoose
  exact follows_convert (follows_visit hstandard _ p) _

/-- A field meets sites with a property that is handed down, if its own site has it. -/
theorem meets_visit {P : Position → TypeId → Prop}
    (hstandard : ∀ s ∈ strategies, s ∈ Strategy.standard) (hP : HandedDown S.catalog S.policy P)
    {f : Field} (hf : P (p.enter f.name) f.type) (room : Nat) (b : Build) :
    Meets P (p.depth + room) b ((Walk.visit strategies S room p f).runOn b) := by
  -- with all strategies the sites have the property, and with some of them no others are met
  have hruns := Task.runs S (.field room p f) b
  exact (follows_visit hstandard room p f b).meets (hruns.meets hP hf)

end Walk

end Schemata
