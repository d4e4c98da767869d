import Schemata.Proofs.Walk.Lockstep

/-!
# Builds with another beginning of targets

The targets of references begin with a text that is an option of the compilation.  It goes into
fix-ups and into targets, and nothing that a walk decides is read from there.  So walks with two
such texts go in lockstep, and leave builds that differ in these texts only.

## Key results

- `Arena.Reprefixed.runAll`: the same placeholders are filled, with other targets
- `Build.Reprefixed.refer`: a node is referred to by the same name
- `lockstep_of_refPrefix`: walks with two beginnings of targets go in lockstep
-/

namespace Schemata

/-! ## Notes of another kind -/

namespace Progress

variable {φ ψ : Type} {g : φ → ψ} {p : Progress φ} {t : TypeId}

/-- The same progress, with notes of another kind. -/
def mapNotes (g : φ → ψ) (p : Progress φ) : Progress ψ where
  completed := p.completed
  expanding := p.expanding.map fun e => (e.1, e.2.map g)

@[simp] theorem notes?_mapNotes : (p.mapNotes g).notes? t = (p.notes? t).map (List.map g) := by
  simp only [notes?, mapNotes, List.find?_map, Option.map_map]
  rfl

/-- No stage depends on what the notes are. -/
@[simp] theorem stage_mapNotes : (p.mapNotes g).stage t = p.stage t := by
  have hnode : (p.mapNotes g).node? t = p.node? t := rfl
  rw [stage, stage, hnode, notes?_mapNotes]
  cases p.node? t <;> cases p.notes? t <;> rfl

/-- Starting a type leaves its notes empty, whatever they would be. -/
private theorem started_mapNotes : (p.mapNotes g).started t = (p.started t).mapNotes g := by
  simp [started, mapNotes]

/-- A note is added as its image. -/
private theorem noted_mapNotes {note : φ} :
    (p.mapNotes g).noted t (g note) = (p.noted t note).mapNotes g := by
  simp only [noted, mapNotes, List.map_map, Progress.mk.injEq, true_and]
  refine List.map_congr_left fun e _ => ?_
  -- only the entry of this type gets the note
  by_cases he : e.1 = t <;> simp [he]

/-- Finishing a type drops its notes, whatever they are. -/
private theorem finished_mapNotes {node : NodeId} :
    (p.mapNotes g).finished t node = (p.finished t node).mapNotes g := by
  simp only [finished, mapNotes, List.filter_map]
  rfl

end Progress

/-! ## Nodes and arenas -/

variable {p q : String}

/-- The same node, but that the target of a reference begins with `p` in one and with `q` in the
other. -/
inductive Node.Reprefixed (p q : String) : Node → Node → Prop where
  | same {n : Node} (h : ∀ target, n.body ≠ .reference (some target)) : Reprefixed p q n n
  | reference (name : String) (properties : OrderedMap NodeId) :
    Reprefixed p q ⟨.reference (some (p ++ name)), properties⟩
      ⟨.reference (some (q ++ name)), properties⟩

namespace Node.Reprefixed

variable {n n' : Node}

/-- A reference has no name, so names are the same. -/
private theorem name?_eq (h : n.Reprefixed p q n') : n.name? = n'.name? := by
  cases h <;> rfl

private theorem isReference_eq (h : n.Reprefixed p q n') : n.isReference = n'.isReference := by
  cases h <;> rfl

private theorem addProperty (h : n.Reprefixed p q n') (name : String) (child : NodeId) :
    (n.addProperty name child).Reprefixed p q (n'.addProperty name child) := by
  cases h with
  | same hbody => exact .same hbody
  | reference target properties => exact .reference target _

end Node.Reprefixed

/-- A placeholder is filled if the node that is completed has a name. -/
private theorem Fixup.run_naming (refPrefix : String) (id object : NodeId) (a : Arena) :
    (naming refPrefix id).run object a =
      match (a.get? object).bind (·.name?) with
      | some name => a.modify id (·.toReference (refPrefix ++ name))
      | none => a := by
  unfold run target? naming
  cases a.get? object with
  | none => rfl
  | some n =>
    simp only [Option.bind_some, Node.refTarget?]
    cases n.name? <;> rfl

/-- The same nodes, but for the beginning of targets. -/
structure Arena.Reprefixed (p q : String) (a a' : Arena) : Prop where
  size : a.size = a'.size
  node : ∀ id, Option.Rel (Node.Reprefixed p q) (a.get? id) (a'.get? id)

namespace Arena.Reprefixed

variable {a a' : Arena} {n n' : Node}

private theorem next (h : a.Reprefixed p q a') : a.next = a'.next := congrArg NodeId.mk h.size

private theorem push (h : a.Reprefixed p q a') (hn : n.Reprefixed p q n') :
    (a.push n).Reprefixed p q (a'.push n') where
  size := by rw [size_push, size_push, h.size]
  node id := by
    -- the next place is the same in both arenas
    rw [get?_push, get?_push, h.next]
    split
    · exact .some hn
    · exact h.node id

/-- A change that keeps nodes alike keeps arenas alike. -/
private theorem modify (h : a.Reprefixed p q a') (id : NodeId) {f f' : Node → Node}
    (hf : ∀ {n n'}, n.Reprefixed p q n' → (f n).Reprefixed p q (f' n')) :
    (a.modify id f).Reprefixed p q (a'.modify id f') where
  size := by rw [size_modify, size_modify, h.size]
  node other := by
    rw [get?_modify, get?_modify]
    have hother := h.node other
    split
    · generalize a.get? other = o at hother
      generalize a'.get? other = o' at hother
      cases hother with
      | none => exact .none
      | some hn => exact .some (hf hn)
    · exact hother

/-- What a node is called, it is called in both arenas. -/
theorem name?_eq (h : a.Reprefixed p q a') (id : NodeId) :
    (a.get? id).bind (·.name?) = (a'.get? id).bind (·.name?) := by
  have hid := h.node id
  generalize a.get? id = o at hid
  generalize a'.get? id = o' at hid
  cases hid with
  | none => rfl
  | some hn => exact hn.name?_eq

/-- The same placeholders are filled, with targets that begin differently. -/
theorem runAll (h : a.Reprefixed p q a') (object : NodeId) (ids : List NodeId) :
    (Fixup.runAll (ids.map (Fixup.naming p)) object a).Reprefixed p q
      (Fixup.runAll (ids.map (Fixup.naming q)) object a') := by
  -- on the fix-ups, which are run one after the other in both arenas
  induction ids generalizing a a' with
  | nil => exact h
  | cons id rest ih =>
    rw [List.map_cons, List.map_cons, Fixup.runAll_cons, Fixup.runAll_cons]
    refine ih ?_
    -- both are filled or neither is, as the node that is completed has a name or none
    rw [Fixup.run_naming, Fixup.run_naming, h.name?_eq object]
    cases (a'.get? object).bind (·.name?) with
    | none => exact h
    | some name => exact h.modify id fun _ => .reference name _

end Arena.Reprefixed

/-! ## Builds -/

/-- Builds with the same names, nodes and stages, and in which the same placeholders wait, but for
the beginning of targets.  Their logs, which nothing reads, may differ. -/
structure Build.Reprefixed (p q : String) (b b' : Build) : Prop where
  arena : b.arena.Reprefixed p q b'.arena
  names : b.names = b'.names
  progress : ∃ waiting : Progress NodeId,
    b.progress = waiting.mapNotes (Fixup.naming p) ∧
      b'.progress = waiting.mapNotes (Fixup.naming q)

namespace Build.Reprefixed

variable {b b' : Build} {c : Catalog} {t : TypeId} {id : NodeId}

theorem empty (p q : String) : Reprefixed p q {} {} where
  arena := ⟨rfl, fun _ => .none⟩
  names := rfl
  progress := ⟨{}, rfl, rfl⟩

theorem completed_eq (h : b.Reprefixed p q b') : b.progress.completed = b'.progress.completed := by
  obtain ⟨waiting, hwaiting, hwaiting'⟩ := h.progress
  rw [hwaiting, hwaiting']
  rfl

private theorem stage_eq (h : b.Reprefixed p q b') (t : TypeId) :
    b.progress.stage t = b'.progress.stage t := by
  obtain ⟨waiting, hwaiting, hwaiting'⟩ := h.progress
  rw [hwaiting, hwaiting', Progress.stage_mapNotes, Progress.stage_mapNotes]

private theorem visit (h : b.Reprefixed p q b') (position : Position) (t : TypeId) :
    (b.visit position t).Reprefixed p q (b'.visit position t) :=
  ⟨h.arena, h.names, h.progress⟩

/-- Nodes that are alike may be stored. -/
private theorem store (h : b.Reprefixed p q b') {n n' : Node} (hn : n.Reprefixed p q n') :
    (b.store n).Reprefixed p q (b'.store n') :=
  ⟨h.arena.push hn, h.names, h.progress⟩

/-- A node is referred to in the same way, by a target that begins differently. -/
theorem refer (h : b.Reprefixed p q b') (id : NodeId) :
    (b.refer p id).1 = (b'.refer q id).1 ∧
      (b.refer p id).2.Reprefixed p q (b'.refer q id).2 := by
  have hid := h.arena.node id
  unfold Build.refer
  generalize b.arena.get? id = o at hid
  generalize b'.arena.get? id = o' at hid
  cases hid with
  | none => exact ⟨rfl, h⟩
  | @some n n' hn =>
    dsimp only
    rw [hn.isReference_eq]
    split
    · exact ⟨rfl, h⟩
    · rw [Node.refTarget?, Node.refTarget?, hn.name?_eq]
      cases n'.name? with
      | none => exact ⟨rfl, h⟩
      | some name => exact ⟨h.arena.next, h.store (.reference name _)⟩

/-- The same placeholder waits. -/
private theorem defer (h : b.Reprefixed p q b') (t : TypeId) :
    (b.defer p t).Reprefixed p q (b'.defer q t) where
  arena := h.arena.push (.same fun _ he => nomatch he)
  names := h.names
  progress := by
    obtain ⟨waiting, hwaiting, hwaiting'⟩ := h.progress
    refine ⟨waiting.noted t b.arena.next, ?_, ?_⟩
    · rw [Build.defer, hwaiting, Progress.noted_mapNotes]
    · rw [Build.defer, hwaiting', h.arena.next, Progress.noted_mapNotes]

private theorem openRecord (h : b.Reprefixed p q b') (c : Catalog) (t : TypeId) :
    (b.openRecord c t).Reprefixed p q (b'.openRecord c t) where
  arena := by
    rw [Build.openRecord, Build.openRecord, h.names]
    refine h.arena.push (.same fun _ he => ?_)
    cases he
  names := by rw [Build.openRecord, Build.openRecord, h.names]
  progress := by
    obtain ⟨waiting, hwaiting, hwaiting'⟩ := h.progress
    refine ⟨waiting.started t, ?_, ?_⟩
    · rw [Build.openRecord, hwaiting, Progress.started_mapNotes]
    · rw [Build.openRecord, hwaiting', Progress.started_mapNotes]

private theorem setProperty (h : b.Reprefixed p q b') (object : NodeId) (name : String)
    (child : NodeId) :
    (b.setProperty object name child).Reprefixed p q (b'.setProperty object name child) :=
  ⟨h.arena.modify object fun hn => hn.addProperty name child, h.names, h.progress⟩

/-- The same placeholders are filled when a record is completed. -/
private theorem closeRecord (h : b.Reprefixed p q b') {t : TypeId} {notes : List Fixup}
    (hnotes : b.progress.notes? t = some notes) (object : NodeId) :
    ∃ notes', b'.progress.notes? t = some notes' ∧
      (b.closeRecord t object notes).Reprefixed p q (b'.closeRecord t object notes') := by
  obtain ⟨waiting, hwaiting, hwaiting'⟩ := h.progress
  rw [hwaiting, Progress.notes?_mapNotes] at hnotes
  -- the same places wait, so the same number of fix-ups is run
  obtain ⟨ids, hids, rfl⟩ := Option.map_eq_some_iff.mp hnotes
  refine ⟨ids.map (Fixup.naming q), ?_, ⟨h.arena.runAll object ids, h.names, ?_⟩⟩
  · rw [hwaiting', Progress.notes?_mapNotes, hids]
    rfl
  · refine ⟨waiting.finished t object, ?_, ?_⟩
    · rw [Build.closeRecord, hwaiting, Progress.finished_mapNotes]
    · rw [Build.closeRecord, hwaiting', Progress.finished_mapNotes]

end Build.Reprefixed

/-- Walks with two beginnings of targets go in lockstep, with each type related to itself. -/
theorem Walk.lockstep_of_refPrefix {R : TypeId → TypeId → Prop} {c : Catalog} {policy : FieldPolicy}
    {maxDepth : Nat} (h : Catalog.Agrees R c c) (hsame : ∀ {t t'}, R t t' → t = t')
    (hpolicy : ∀ {t t'}, R t t' → List.Forall₂ (Field.Matches R) (policy c t) (policy c t')) :
    Lockstep ⟨c, { maxDepth, refPrefix := p }, policy⟩ ⟨c, { maxDepth, refPrefix := q }, policy⟩ R
      (Build.Reprefixed p q) where
  limit := rfl
  catalog := h
  policy := hpolicy
  next hb := hb.arena.next
  stage hb ht := hsame ht ▸ hb.stage_eq _
  visit hb ht := hsame ht ▸ hb.visit _ _
  store hb hleaf := hb.store (.same fun target he => by rw [he] at hleaf; cases hleaf)
  refer hb := hb.refer _
  defer hb ht := hsame ht ▸ hb.defer _
  openRecord hb ht := hsame ht ▸ hb.openRecord _ _
  setProperty hb := hb.setProperty _ _ _
  closeRecord hb ht hnotes := hsame ht ▸ hb.closeRecord hnotes _

end Schemata
