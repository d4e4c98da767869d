import Schemata.Proofs.Walk.Extends
import Schemata.Proofs.Walk.Invariant
import Mathlib.Logic.Relation

/-!
# Runs as sequences of moves

A run changes a build by moves, one small change after the other.  Every move keeps the invariants
of a build, so they hold after every run, also after one that fails.

## Key results

- `Move.sound`: a move keeps the invariants
- `Move.get?_eq`: the nodes that no move changes
- `Runs.moves`: a run is a sequence of moves
- `Runs.sound`: a run keeps the invariants
-/

namespace Schemata

/-- Whether a node is neither an object nor a reference. -/
def Body.isLeaf : Body → Bool
  | .array _ | .scalar .. | .enumeration .. => true
  | .object _ | .reference _ => false

namespace Build

/-- Both invariants of a build. -/
structure Sound (S : Setting) (b : Build) : Prop where
  recorded : b.Recorded S.catalog
  waiting : b.Waiting S.options.refPrefix

/-- A place holds an object whose type is not completed. -/
structure IsOpen (b : Build) (object : NodeId) : Prop where
  body : ∃ name, b.arena.body? object = some (.object name)
  unfinished : ∀ e ∈ b.progress.completed, e.2 ≠ object

/-- A placeholder waits for a type that is being expanded. -/
def Awaits (b : Build) (refPrefix : String) (t : TypeId) (id : NodeId) : Prop :=
  ∃ notes, b.progress.notes? t = some notes ∧ .naming refPrefix id ∈ notes

variable {S : Setting} {b b' : Build} {t : TypeId} {object id : NodeId}

/-- The queued fix-ups are those that are noted for some type. -/
theorem Sound.mem_queued_iff (h : b.Sound S) {f : Fixup} :
    (t, f) ∈ b.progress.queued ↔ ∃ notes, b.progress.notes? t = some notes ∧ f ∈ notes :=
  Progress.mem_queued_iff h.recorded.expandingTypes_nodup

/-- What waits for a type is a placeholder. -/
theorem Sound.body?_of_awaits (h : b.Sound S) (hid : b.Awaits S.options.refPrefix t id) :
    b.arena.body? id = some (.reference none) := by
  obtain ⟨other, he, hbody⟩ := h.waiting.placeholder (h.mem_queued_iff.mpr hid)
  rwa [Option.some.inj (congrArg Fixup.node he)]

/-- The node of a completed type is stored. -/
theorem Sound.index_lt_of_completed (h : b.Sound S) (hid : (t, id) ∈ b.progress.completed) :
    id.index < b.arena.size := by
  obtain ⟨_, _, hbody⟩ := h.recorded.node hid
  exact Arena.index_lt_of_body? hbody

/-- An object stays open while other nodes are added. -/
theorem IsOpen.extends {refPrefix : String} {own : Option NodeId} (h : b.IsOpen object)
    (hb : b.Extends refPrefix own b') : b'.IsOpen object := by
  obtain ⟨name, hbody⟩ := h.body
  have hlt := Arena.index_lt_of_body? hbody
  refine ⟨⟨name, by rw [hb.body?_eq hlt, hbody]⟩, fun e he heq => ?_⟩
  obtain ⟨new, hnew, hle⟩ := hb.completed
  -- a type completed before has another object, and one completed since has a later one
  rw [hnew, List.mem_append] at he
  cases he with
  | inl he => exact h.unfinished e he heq
  | inr he =>
    have hge := hle e he
    rw [heq] at hge
    omega

/-- The object of a record that was just opened is open. -/
private theorem isOpen_openRecord (h : b.Sound S) (c : Catalog) (t : TypeId) :
    (b.openRecord c t).IsOpen b.arena.next := by
  refine ⟨⟨(b.names.request c t).1, ?_⟩, ?_⟩
  · show (b.store (.object _)).arena.body? _ = _
    rw [body?_store, if_pos rfl]
    rfl
  · rintro ⟨u, id⟩ hid rfl
    -- the nodes of completed types were there before the object was stored
    exact Nat.lt_irrefl _ (h.index_lt_of_completed hid)

end Build

namespace Walk

/-- A small change that a run makes, with what is known when it is made. -/
inductive Move (S : Setting) : Build → Build → Prop where
  /-- The walk comes to a type. -/
  | visit {b} (p : Position) (t : TypeId) : Move S b (b.visit p t)
  /-- A node is stored that is never changed. -/
  | leaf {b} (n : Node) (hn : n.body.isLeaf = true) : Move S b (b.store n)
  /-- A reference to the object of a completed type is stored. -/
  | refer {b t object name} (hnode : (t, object) ∈ b.progress.completed)
      (hbody : b.arena.body? object = some (.object name)) :
      Move S b (b.store (.reference (S.options.refPrefix ++ name)))
  /-- A type that is being expanded is put off. -/
  | defer {b t} (hnotes : (b.progress.notes? t).isSome) :
      Move S b (b.defer S.options.refPrefix t)
  /-- The expansion of an absent record begins. -/
  | openRecord {b t} (hrecord : S.catalog.isRecord t = true)
      (hstage : b.progress.stage t = .absent) : Move S b (b.openRecord S.catalog t)
  /-- An open object is given a property. -/
  | setProperty {b object} (hopen : b.IsOpen object) (name : String) (child : NodeId) :
      Move S b (b.setProperty object name child)
  /-- The expansion of a record ends, and the placeholders that wait for it are filled. -/
  | closeRecord {b t object name} {ids : List NodeId}
      (hnotes : b.progress.notes? t = some (ids.map (Fixup.naming S.options.refPrefix)))
      (hname : b.names.name? t = some name)
      (hbody : b.arena.body? object = some (.object name))
      (hids : ∀ id ∈ ids, b.arena.body? id = some (.reference none)) :
      Move S b (b.closeRecord t object (ids.map (Fixup.naming S.options.refPrefix)))

namespace Move

variable {S : Setting} {b b' : Build} {t : TypeId} {id : NodeId}

/-- A move keeps names, progress, log and objects in step. -/
private theorem recorded (h : Move S b b') (hb : b.Recorded S.catalog) : b'.Recorded S.catalog := by
  -- one lemma for each move; most leave what is recorded as it is
  cases h with
  | visit p t => exact hb.congr rfl (Build.listed_visit b p t) rfl rfl Iff.rfl
  | leaf n hn => exact hb.store fun name he => by rw [he] at hn; cases hn
  | refer hnode hbody => exact hb.store fun name he => nomatch he
  | defer hnotes => exact hb.defer _ _
  | openRecord hrecord hstage => exact hb.openRecord hrecord hstage
  | setProperty hopen name child =>
    refine hb.congr rfl rfl rfl rfl ?_
    intro id name
    rw [Build.setProperty, Arena.body?_modify_addProperty]
  | closeRecord hnotes hname hbody hids =>
    have ht := Progress.mem_expandingTypes_of_notes hnotes
    exact hb.closeRecord ht hname hbody hids

/-- A move keeps placeholders and fix-ups paired. -/
private theorem waiting (h : Move S b b') (hb : b.Sound S) : b'.Waiting S.options.refPrefix := by
  have hnodup := hb.recorded.expandingTypes_nodup
  cases h with
  | visit p t => exact hb.waiting.congr rfl rfl Iff.rfl id
  | leaf n hn => exact hb.waiting.store fun target he => by rw [he] at hn; cases hn
  | refer hnode hbody => exact hb.waiting.refer hnode hbody
  | defer hnotes => exact hb.waiting.defer hnodup (Progress.isSome_notes?_iff.mp hnotes)
  | openRecord hrecord hstage => exact hb.waiting.openRecord _ _
  | @setProperty object hopen name child =>
    have hbody : ∀ id, (b.setProperty object name child).arena.body? id = b.arena.body? id :=
      fun id => Arena.body?_modify_addProperty _ _ _ _ _
    refine hb.waiting.congr rfl rfl ?_ ?_
    · intro id target
      -- bodies stay, since only properties are given
      rw [hbody]
    · intro id other hid
      rw [hbody, hid]
  | closeRecord hnotes hname hbody hids => exact hb.waiting.closeRecord hnodup hnotes hbody hids

/-- A move keeps both invariants. -/
theorem sound (h : Move S b b') (hb : b.Sound S) : b'.Sound S :=
  ⟨h.recorded hb.recorded, h.waiting hb⟩

/-- No move changes a node but a placeholder and the object of a type that is not completed. -/
theorem get?_eq (h : Move S b b') {n : Node} (hn : b.arena.get? id = some n)
    (hplaceholder : n.body ≠ .reference none)
    (hobject : ∀ name, n.body = .object name → ∃ t, (t, id) ∈ b.progress.completed) :
    b'.arena.get? id = some n := by
  have hlt := Arena.index_lt_of_get? hn
  cases h with
  | visit p t => exact hn
  | leaf m hm => rw [Build.store, Arena.get?_push_of_lt _ hlt, hn]
  | refer hnode hbody => rw [Build.store, Arena.get?_push_of_lt _ hlt, hn]
  | defer hnotes => rw [Build.defer, Arena.get?_push_of_lt _ hlt, hn]
  | openRecord hrecord hstage => rw [Build.openRecord, Arena.get?_push_of_lt _ hlt, hn]
  | @setProperty object hopen name child =>
    rw [Build.setProperty, Arena.get?_modify, if_neg, hn]
    -- an open object is not the node of a completed type
    rintro rfl
    obtain ⟨other, hbody⟩ := hopen.body
    rw [Arena.body?_of_get? hn, Option.some.injEq] at hbody
    obtain ⟨t, ht⟩ := hobject other hbody
    exact hopen.unfinished _ ht rfl
  | closeRecord hnotes hname hbody hids =>
    rw [Build.get?_closeRecord hbody hids, if_neg, hn]
    -- only placeholders are filled
    intro hmem
    have hid := hids id hmem
    rw [Arena.body?_of_get? hn] at hid
    exact hplaceholder (Option.some.inj hid)

/-- A move takes no type from those that are completed. -/
theorem completed (h : Move S b b') {e : TypeId × NodeId} (he : e ∈ b.progress.completed) :
    e ∈ b'.progress.completed := by
  cases h with
  | visit | leaf | refer | defer | openRecord | setProperty => exact he
  | closeRecord => exact Build.mem_completed_closeRecord_of_mem he

end Move

/-- A sequence of moves keeps both invariants. -/
theorem sound_of_moves {S : Setting} {b b' : Build} (h : Relation.ReflTransGen (Move S) b b')
    (hb : b.Sound S) : b'.Sound S := by
  induction h with
  | refl => exact hb
  | tail _ hmove ih => exact hmove.sound ih

/-! ## Runs are sequences of moves -/

/-- A task may be carried out: fields are given to an object that is open. -/
def Task.Ready (b : Build) : Task → Prop
  | .fields _ _ object _ => b.IsOpen object
  | .field .. | .type .. => True

namespace Runs

variable {S : Setting} {task : Task} {b b' : Build} {r : Except CompileError NodeId × Build}
  {room : Nat} {p : Position} {t : TypeId} {id : NodeId}

/-- A record comes to its own node if it is completed, and else to a placeholder. -/
theorem completed_or_awaits (h : Runs S (.type room p t) b (.ok id, b'))
    (hrecord : S.catalog.isRecord t = true) :
    (t, id) ∈ b'.progress.completed ∨ b'.Awaits S.options.refPrefix t id := by
  -- the shapes that are no record cannot occur here
  cases h with
  | scalar hshape | enumeration hshape | unknownElements hshape =>
    rw [Catalog.isRecord, hshape] at hrecord
    cases hrecord
  | elements helement _ =>
    rw [Catalog.isRecord_of_element? helement] at hrecord
    cases hrecord
  | known _ hnode => exact .inl (mem_of_valueOf? hnode)
  | deferred _ hstage =>
    obtain ⟨notes, hnotes⟩ :=
      Option.isSome_iff_exists.mp (Progress.stage_eq_expanding_iff.mp hstage).2
    refine .inr ⟨notes ++ [.naming S.options.refPrefix b.arena.next], ?_, by simp⟩
    rw [Build.notes?_defer, if_pos rfl]
    show (b.progress.notes? t).map _ = _
    rw [hnotes]
    rfl
  | expanded => exact .inl Build.mem_completed_closeRecord

/-- Referring to the node of a record is a move, or nothing at all. -/
theorem moves_refer (h : Runs S (.type room p t) b (.ok id, b'))
    (hrecord : S.catalog.isRecord t = true) (hb' : b'.Sound S) :
    Relation.ReflTransGen (Move S) b' (b'.refer S.options.refPrefix id).2 := by
  cases h.completed_or_awaits hrecord with
  | inl hnode =>
    -- the node is the object of the record, and has a name
    obtain ⟨name, _, hbody⟩ := hb'.recorded.node hnode
    rw [Build.refer_of_object _ hbody]
    exact .single (.refer hnode hbody)
  | inr hawaits => rw [Build.refer_of_reference _ (hb'.body?_of_awaits hawaits)]

/-- A record that is absent is opened by moves. -/
theorem moves_openRecord (hb : b.Sound S) (p : Position) (hrecord : S.catalog.isRecord t = true)
    (hstage : b.progress.stage t = .absent) :
    Relation.ReflTransGen (Move S) b ((b.visit p t).openRecord S.catalog t) ∧
      ((b.visit p t).openRecord S.catalog t).IsOpen b.arena.next := by
  have hvisit : Move S b (b.visit p t) := .visit p t
  have hopen : Move S (b.visit p t) ((b.visit p t).openRecord S.catalog t) :=
    .openRecord hrecord hstage
  exact ⟨.head hvisit (.single hopen),
    Build.isOpen_openRecord (hvisit.sound hb) S.catalog t⟩

/-- A property leaves an object open for the next one. -/
theorem move_setProperty {object : NodeId} (h : b.IsOpen object) (name : String)
    (child : NodeId) :
    Move S b (b.setProperty object name child) ∧
      (b.setProperty object name child).IsOpen object := by
  have hgiven : b.Extends S.options.refPrefix (some object) (b.setProperty object name child) :=
    .setProperty _ _ _
  exact ⟨.setProperty h name child, h.extends hgiven⟩

/-- When the fields of a record are done, its object still has its name, and all fix-ups that wait
for it were left by the run. -/
theorem ready_to_close {notes : List Fixup} (hb : b.Sound S) (hstage : b.progress.stage t = .absent)
    (hfields : Runs S (.fields room p b.arena.next (S.policy S.catalog t))
      ((b.visit p t).openRecord S.catalog t) (.ok b.arena.next, b'))
    (hnotes : b'.progress.notes? t = some notes) (hb' : b'.Sound S) :
    ∃ name, ∃ ids : List NodeId, notes = ids.map (Fixup.naming S.options.refPrefix) ∧
      b'.names.name? t = some name ∧ b'.arena.body? b.arena.next = some (.object name) ∧
      ∀ id ∈ ids, b'.arena.body? id = some (.reference none) := by
  have hext := hfields.extends
  obtain ⟨name, _, hentries, harena⟩ :=
    Build.exists_openRecord_of_none (c := S.catalog) (hb.recorded.name?_of_absent hstage)
  have hname : ((b.visit p t).openRecord S.catalog t).names.name? t = some name := by
    -- an absent type has no name, so the one that is asked for is the last
    show valueOf? (b.openRecord S.catalog t).names.entries t = _
    rw [hentries, valueOf?_append, show valueOf? b.names.entries t = none from
      hb.recorded.name?_of_absent hstage, valueOf?_singleton, if_pos rfl]
    rfl
  have hbody : ((b.visit p t).openRecord S.catalog t).arena.body? b.arena.next =
      some (.object name) := by
    show (b.openRecord S.catalog t).arena.body? b.arena.next = _
    rw [harena, Build.body?_store, if_pos rfl]
    rfl
  obtain ⟨ids, rfl, _⟩ := hext.notes_since (b := b.visit p t) hstage hnotes
  refine ⟨name, ids, rfl, NameTable.name?_of_prefix hext.names hname, ?_, fun id hid => ?_⟩
  · rw [hext.body?_eq (Arena.index_lt_of_body? hbody), hbody]
  · exact hb'.body?_of_awaits ⟨_, hnotes, List.mem_map.mpr ⟨id, hid, rfl⟩⟩

/-- A run is a sequence of moves. -/
theorem moves (h : Runs S task b r) (hb : b.Sound S) (hready : task.Ready b) :
    Relation.ReflTransGen (Move S) b r.2 := by
  -- on the run; an object is open from the opening of its record to the end
  induction h with
  | tooDeep | noFields => exact .refl
  | fieldPlain _ _ ih | fieldFailed _ ih => exact ih hb trivial
  | fieldRecord hrecord htype ih =>
    have hmoves := ih hb trivial
    exact hmoves.trans (htype.moves_refer hrecord (sound_of_moves hmoves hb))
  | @scalar room p t b | @enumeration room p t b | @unknownElements room p t b =>
    exact .tail (.single (.visit p t)) (.leaf _ rfl)
  | @elements room p t b e items b' helement hitems ih =>
    have hvisit : Move S b (b.visit p t) := .visit p t
    exact .tail (.head hvisit (ih (hvisit.sound hb) trivial)) (.leaf _ rfl)
  | @elementsFailed room p t b e err b' helement hitems ih =>
    have hvisit : Move S b (b.visit p t) := .visit p t
    exact .head hvisit (ih (hvisit.sound hb) trivial)
  | @known room p t b => exact .single (.visit p t)
  | @deferred room p t b hrecord hstage =>
    exact .tail (.single (.visit p t)) (.defer (Progress.stage_eq_expanding_iff.mp hstage).2)
  | @expanded room p t b b' notes hrecord hstage hfields hnotes ih =>
    obtain ⟨hopened, hopen⟩ := moves_openRecord hb p hrecord hstage
    -- from the opening to the last field, and then the record is closed
    have hmoves := hopened.trans (ih (sound_of_moves hopened hb) hopen)
    obtain ⟨name, ids, rfl, hname, hbody, hids⟩ :=
      ready_to_close hb hstage hfields hnotes (sound_of_moves hmoves hb)
    exact hmoves.tail (.closeRecord hnotes hname hbody hids)
  | @expansionFailed room p t b e b' hrecord hstage hfields ih =>
    obtain ⟨hopened, hopen⟩ := moves_openRecord hb p hrecord hstage
    exact hopened.trans (ih (sound_of_moves hopened hb) hopen)
  | @nextField room p object f fs b child b' r hfield hrest ih ihrest =>
    have hmoves := ih hb trivial
    obtain ⟨hset, hopen⟩ := move_setProperty (S := S)
      (Build.IsOpen.extends hready hfield.extends) f.name child
    exact hmoves.trans (.head hset (ihrest (hset.sound (sound_of_moves hmoves hb)) hopen))
  | fieldsFailed _ ih => exact ih hb trivial

/-- So a run keeps both invariants. -/
theorem sound (h : Runs S task b r) (hb : b.Sound S) (hready : task.Ready b) : r.2.Sound S :=
  sound_of_moves (h.moves hb hready) hb

end Runs

end Walk

end Schemata
