import Schemata.Proofs.Catalog.Agrees
import Schemata.Proofs.Walk.Moves

/-!
# Walks in lockstep

Two walks, in different settings and on different builds, go in lockstep if they meet related types
at the same positions, and if each effect keeps a relation between the builds.  Then they end at the
same node or with the same error.

## Key results

- `Runs.lockstep`: a run in one setting is followed by a run in the other
-/

namespace Schemata.Walk

/-- What it takes for walks in two settings to go in lockstep, where `R` relates types and `B`
relates builds. -/
structure Lockstep (S S' : Setting) (R : TypeId → TypeId → Prop) (B : Build → Build → Prop) :
    Prop where
  limit : S.options.maxDepth = S'.options.maxDepth
  catalog : Catalog.Agrees R S.catalog S'.catalog
  policy : ∀ {t t'}, R t t' →
    List.Forall₂ (Field.Matches R) (S.policy S.catalog t) (S'.policy S'.catalog t')
  /-- The next node takes the same place in both builds. -/
  next : ∀ {b b'}, B b b' → b.arena.next = b'.arena.next
  /-- Related types are at the same stage, and if that is completion, they have the same node. -/
  stage : ∀ {b b' t t'}, B b b' → R t t' → b.progress.stage t = b'.progress.stage t'
  visit : ∀ {b b' p t t'}, B b b' → R t t' → B (b.visit p t) (b'.visit p t')
  store : ∀ {b b' n}, B b b' → n.body.isLeaf = true → B (b.store n) (b'.store n)
  refer : ∀ {b b' id}, B b b' →
    (b.refer S.options.refPrefix id).1 = (b'.refer S'.options.refPrefix id).1 ∧
      B (b.refer S.options.refPrefix id).2 (b'.refer S'.options.refPrefix id).2
  defer : ∀ {b b' t t'}, B b b' → R t t' →
    B (b.defer S.options.refPrefix t) (b'.defer S'.options.refPrefix t')
  openRecord : ∀ {b b' t t'}, B b b' → R t t' →
    B (b.openRecord S.catalog t) (b'.openRecord S'.catalog t')
  setProperty : ∀ {b b' object name child}, B b b' →
    B (b.setProperty object name child) (b'.setProperty object name child)
  closeRecord : ∀ {b b' t t' object notes}, B b b' → R t t' → b.progress.notes? t = some notes →
    ∃ notes', b'.progress.notes? t' = some notes' ∧
      B (b.closeRecord t object notes) (b'.closeRecord t' object notes')

/-- Tasks of one kind at one position, about related types. -/
inductive Task.Matches (R : TypeId → TypeId → Prop) : Task → Task → Prop where
  | field {room p f f'} (hf : f.Matches R f') : Matches R (.field room p f) (.field room p f')
  | type {room p t t'} (ht : R t t') : Matches R (.type room p t) (.type room p t')
  | fields {room p object fs fs'} (hfs : List.Forall₂ (Field.Matches R) fs fs') :
    Matches R (.fields room p object fs) (.fields room p object fs')

variable {S S' : Setting} {R : TypeId → TypeId → Prop} {B : Build → Build → Prop}

/-- Elements of related containers are related, as fields are. -/
private theorem Lockstep.elements (hl : Lockstep S S' R B) {t t' e : TypeId} (ht : R t t')
    (helement : S.catalog.element? t = some e) :
    ∃ e', S'.catalog.element? t' = some e' ∧
      (Field.elements t e).Matches R (Field.elements t' e') := by
  -- the relation gives both types elements or neither
  have hrel := hl.catalog.element ht
  rw [helement] at hrel
  cases he' : S'.catalog.element? t' with
  | none =>
    rw [he'] at hrel
    cases hrel
  | some e' =>
    rw [he'] at hrel
    cases hrel with
    | some he => exact ⟨e', rfl, rfl, he, ht⟩

/-- A run is followed by a run that ends in the same way, if walks go in lockstep. -/
theorem Runs.lockstep {task task' : Task} {b b' : Build} {r : Except CompileError NodeId × Build}
    (h : Runs S task b r) (hl : Lockstep S S' R B) (htask : task.Matches R task') (hb : B b b') :
    ∃ b₁', Runs S' task' b' (r.1, b₁') ∧ B r.2 b₁' := by
  -- on the run; the case of the first run decides on that of the second
  induction h generalizing task' b' with
  | tooDeep =>
    cases htask with
    | field hf =>
      refine ⟨b', ?_, hb⟩
      rw [hf.name, hl.limit]
      exact .tooDeep
  | fieldPlain hrecord _ ih =>
    cases htask with
    | field hf =>
      obtain ⟨b₁', hrun, hb₁⟩ := ih (.type hf.type) hb
      rw [hf.name] at hrun
      -- whether a type is a record is the same in both catalogs
      exact ⟨b₁', .fieldPlain ((hl.catalog.isRecord hf.type).trans hrecord) hrun, hb₁⟩
  | fieldRecord hrecord _ ih =>
    cases htask with
    | field hf =>
      obtain ⟨b₁', hrun, hb₁⟩ := ih (.type hf.type) hb
      rw [hf.name] at hrun
      -- both runs refer to one node, and to the same place
      obtain ⟨hid, hb₂⟩ := hl.refer hb₁
      refine ⟨_, ?_, hb₂⟩
      rw [hid]
      exact .fieldRecord ((hl.catalog.isRecord hf.type).trans hrecord) hrun
  | fieldFailed _ ih =>
    cases htask with
    | field hf =>
      obtain ⟨b₁', hrun, hb₁⟩ := ih (.type hf.type) hb
      rw [hf.name] at hrun
      exact ⟨b₁', .fieldFailed hrun, hb₁⟩
  | scalar hshape =>
    cases htask with
    | type ht =>
      -- related shapes are of one kind, so the other run is of the same case
      obtain ⟨s', hshape', hsame⟩ := hl.catalog.shape_of_eq ht hshape
      cases hsame with
      | scalar s =>
        refine ⟨_, ?_, hl.store (hl.visit hb ht) rfl⟩
        rw [hl.next hb]
        exact .scalar hshape'
  | enumeration hshape =>
    cases htask with
    | type ht =>
      obtain ⟨s', hshape', hsame⟩ := hl.catalog.shape_of_eq ht hshape
      cases hsame with
      | enumeration variants =>
        refine ⟨_, ?_, hl.store (hl.visit hb ht) rfl⟩
        rw [hl.next hb, ← hl.catalog.simpleName ht]
        exact .enumeration hshape'
  | unknownElements hshape =>
    cases htask with
    | type ht =>
      obtain ⟨s', hshape', hsame⟩ := hl.catalog.shape_of_eq ht hshape
      cases hsame with
      | collection ho =>
        cases ho with
        | none =>
          refine ⟨_, ?_, hl.store (hl.visit hb ht) rfl⟩
          rw [hl.next hb]
          exact .unknownElements hshape'
  | elements helement _ ih =>
    cases htask with
    | type ht =>
      obtain ⟨e', helement', hf⟩ := hl.elements ht helement
      obtain ⟨b₁', hrun, hb₁⟩ := ih (.field hf) (hl.visit hb ht)
      refine ⟨_, ?_, hl.store hb₁ rfl⟩
      rw [hl.next hb₁]
      exact .elements helement' hrun
  | elementsFailed helement _ ih =>
    cases htask with
    | type ht =>
      obtain ⟨e', helement', hf⟩ := hl.elements ht helement
      obtain ⟨b₁', hrun, hb₁⟩ := ih (.field hf) (hl.visit hb ht)
      exact ⟨b₁', .elementsFailed helement' hrun, hb₁⟩
  | known hrecord hnode =>
    cases htask with
    | type ht =>
      have hstage := Progress.stage_eq_completed_iff.mpr hnode
      -- the stage is the same, and with it the node
      rw [hl.stage hb ht] at hstage
      have hrecord' := (hl.catalog.isRecord ht).trans hrecord
      exact ⟨_, .known hrecord' (Progress.stage_eq_completed_iff.mp hstage), hl.visit hb ht⟩
  | deferred hrecord hstage =>
    cases htask with
    | type ht =>
      refine ⟨_, ?_, hl.defer (hl.visit hb ht) ht⟩
      rw [hl.stage hb ht] at hstage
      rw [hl.next hb]
      exact .deferred ((hl.catalog.isRecord ht).trans hrecord) hstage
  | expanded hrecord hstage _ hnotes ih =>
    cases htask with
    | type ht =>
      rw [hl.stage hb ht] at hstage
      -- the objects of both records have the same place
      obtain ⟨b₁', hrun, hb₁⟩ := ih (.fields (hl.policy ht)) (hl.openRecord (hl.visit hb ht) ht)
      obtain ⟨notes', hnotes', hb₂⟩ := hl.closeRecord hb₁ ht hnotes
      refine ⟨_, ?_, hb₂⟩
      rw [hl.next hb] at hrun ⊢
      exact .expanded ((hl.catalog.isRecord ht).trans hrecord) hstage hrun hnotes'
  | expansionFailed hrecord hstage _ ih =>
    cases htask with
    | type ht =>
      -- the other record is absent as well, and its fields fail at the same one
      rw [hl.stage hb ht] at hstage
      obtain ⟨b₁', hrun, hb₁⟩ := ih (.fields (hl.policy ht)) (hl.openRecord (hl.visit hb ht) ht)
      refine ⟨b₁', ?_, hb₁⟩
      rw [hl.next hb] at hrun
      exact .expansionFailed ((hl.catalog.isRecord ht).trans hrecord) hstage hrun
  | noFields =>
    cases htask with
    | fields hfs =>
      cases hfs with
      | nil => exact ⟨b', .noFields, hb⟩
  | nextField _ _ ih ihrest =>
    cases htask with
    | fields hfs =>
      cases hfs with
      | cons hf hfs =>
        obtain ⟨b₁', hrun, hb₁⟩ := ih (.field hf) hb
        obtain ⟨b₂', hrest, hb₂⟩ := ihrest (.fields hfs) (hl.setProperty hb₁)
        rw [hf.name] at hrest
        exact ⟨b₂', .nextField hrun hrest, hb₂⟩
  | fieldsFailed _ ih =>
    cases htask with
    | fields hfs =>
      cases hfs with
      | cons hf _ =>
        obtain ⟨b₁', hrun, hb₁⟩ := ih (.field hf) hb
        exact ⟨b₁', .fieldsFailed hrun, hb₁⟩

end Schemata.Walk
