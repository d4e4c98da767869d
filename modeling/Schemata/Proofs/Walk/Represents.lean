import Schemata.Proofs.Walk.Moves

/-!
# What the nodes of a build stand for

A node stands for a type if it is the schema that the shape of the type asks for, and its items
stand for the elements.  A field whose type is a record holds a reference: while the record is being
expanded, a placeholder that waits for it, and then a reference to its object.  A completed record
is described by its object, whose properties stand for the types of its fields.

None of this is undone by later moves, so it holds of half-built builds and of finished ones.

## Key results

- `Represents.of_moves` / `Describes.of_moves`: what a node stands for stays
- `Runs.represents`: the node that a run comes to stands for its type
- `Runs.described`: after a run, all completed records are described
-/

namespace Schemata

/-- A node stands for a type, where `held` says which nodes stand for records. -/
inductive Arena.Represents (c : Catalog) (a : Arena) (held : TypeId → NodeId → Prop) :
    TypeId → NodeId → Prop where
  /-- A built-in type is a scalar with its JSON type and format. -/
  | scalar {t id s} (hshape : c.shape? t = some (.scalar s))
      (hnode : a.get? id = some (.scalar s.jsonType s.format)) : Represents c a held t id
  /-- An enumeration has the same variants in the same order. -/
  | enumeration {t id variants} (hshape : c.shape? t = some (.enumeration variants))
      (hnode : a.get? id = some (.enumeration (c.simpleName t) variants)) :
      Represents c a held t id
  /-- A container is an array whose items stand for its elements. -/
  | elements {t id e items} (helement : c.element? t = some e)
      (hnode : a.get? id = some (.array (some items))) (hitems : Represents c a held e items) :
      Represents c a held t id
  /-- A collection without elements is an array without items. -/
  | unknownElements {t id} (hshape : c.shape? t = some (.collection none))
      (hnode : a.get? id = some (.array none)) : Represents c a held t id
  /-- A record is held by a reference. -/
  | record {t id} (hrecord : c.isRecord t = true) (hheld : held t id) : Represents c a held t id

/-- Nodes stand for the same types in an arena with the same leaves, where more stand for
records. -/
theorem Arena.Represents.mono {c : Catalog} {a a' : Arena} {held held' : TypeId → NodeId → Prop}
    {t : TypeId} {id : NodeId} (h : a.Represents c held t id)
    (hleaf : ∀ {id n}, a.get? id = some n → n.body.isLeaf = true → a'.get? id = some n)
    (hheld : ∀ {t id}, held t id → held' t id) : a'.Represents c held' t id := by
  -- on how the node stands for the type; leaves stay, and records are held on
  induction h with
  | scalar hshape hnode => exact .scalar hshape (hleaf hnode rfl)
  | enumeration hshape hnode => exact .enumeration hshape (hleaf hnode rfl)
  | elements helement hnode _ ih => exact .elements helement (hleaf hnode rfl) ih
  | unknownElements hshape hnode => exact .unknownElements hshape (hleaf hnode rfl)
  | record hrecord hid => exact .record hrecord (hheld hid)

namespace Build

/-- A node refers to a record: it waits for it, or it names the object of the completed record. -/
def Refers (b : Build) (refPrefix : String) (t : TypeId) (id : NodeId) : Prop :=
  b.Awaits refPrefix t id ∨ ∃ object name, (t, object) ∈ b.progress.completed ∧
    b.arena.body? object = some (.object name) ∧
    b.arena.get? id = some (.reference (refPrefix ++ name))

/-- A node stands for a type as the value of a field. -/
abbrev Represents (b : Build) (S : Setting) (t : TypeId) (id : NodeId) : Prop :=
  b.arena.Represents S.catalog (b.Refers S.options.refPrefix) t id

/-- Properties for fields are written one after the other. -/
def writeFields (m : OrderedMap NodeId) (fs : List Field) (children : List NodeId) :
    OrderedMap NodeId :=
  ((fs.map (·.name)).zip children).foldl (fun m p => m.insert p.1 p.2) m

/-- An object describes a record: its properties are written for the fields of the record, and stand
for the types of these. -/
def Describes (b : Build) (S : Setting) (t : TypeId) (object : NodeId) : Prop :=
  ∃ name children,
    b.arena.get? object =
      some ⟨.object name, writeFields .empty (S.policy S.catalog t) children⟩ ∧
    List.Forall₂ (fun f child => b.Represents S f.type child) (S.policy S.catalog t) children

end Build

namespace Walk

variable {S : Setting} {b b' : Build} {t : TypeId} {id object : NodeId}

/-! ## What nodes stand for stays -/

namespace Move

/-- A leaf is neither a placeholder nor an object, so no move changes it. -/
private theorem get?_of_leaf (h : Move S b b') {n : Node} (hn : b.arena.get? id = some n)
    (hleaf : n.body.isLeaf = true) : b'.arena.get? id = some n := by
  refine h.get?_eq hn (fun he => ?_) fun name he => ?_ <;>
  · rw [he] at hleaf
    cases hleaf

/-- A move does not change the object of a completed type. -/
private theorem get?_of_completed (h : Move S b b') (hb : b.Sound S)
    (ht : (t, id) ∈ b.progress.completed) : b'.arena.get? id = b.arena.get? id := by
  obtain ⟨name, _, hbody⟩ := hb.recorded.node ht
  obtain ⟨n, hn, he⟩ := Arena.exists_get?_of_body? hbody
  have hplaceholder : n.body ≠ .reference none := by
    rw [he]
    intro heq
    cases heq
  rw [hn]
  exact h.get?_eq hn hplaceholder fun _ _ => ⟨t, ht⟩

/-- A placeholder that waits for a record is filled when the record is completed, and not before. -/
private theorem refers_of_awaits (h : Move S b b') (hid : b.Awaits S.options.refPrefix t id) :
    b'.Refers S.options.refPrefix t id := by
  obtain ⟨notes, hnotes, hmem⟩ := hid
  cases h with
  | visit | leaf | refer | setProperty => exact .inl ⟨notes, hnotes, hmem⟩
  | @defer u hu =>
    refine .inl ?_
    rw [Build.Awaits, Build.notes?_defer, hnotes]
    split
    · exact ⟨_, rfl, List.mem_append_left _ hmem⟩
    -- what waits for another type is not touched
    · exact ⟨_, rfl, hmem⟩
  | @openRecord u hrecord hstage =>
    exact .inl ⟨notes, Build.notes?_openRecord_of_some _ hnotes, hmem⟩
  | @closeRecord u object name ids hids hname hbody hplaceholders =>
    by_cases hu : u = t
    · -- the record that is completed is the one that the node waits for
      subst hu
      rw [hnotes, Option.some.injEq] at hids
      subst hids
      obtain ⟨i, hi, he⟩ := List.mem_map.mp hmem
      obtain rfl : i = id := Option.some.inj (congrArg Fixup.node he)
      refine .inr ⟨object, name, Build.mem_completed_closeRecord, ?_, ?_⟩
      · exact (Build.body?_closeRecord_object_iff hbody hplaceholders).mpr hbody
      · rw [Build.get?_closeRecord hbody hplaceholders, if_pos hi]
    · exact .inl ⟨notes, by rw [Build.notes?_closeRecord hu, hnotes], hmem⟩

/-- What refers to a record goes on to refer to it. -/
private theorem refers (h : Move S b b') (hb : b.Sound S)
    (hid : b.Refers S.options.refPrefix t id) : b'.Refers S.options.refPrefix t id := by
  rcases hid with hid | ⟨object, name, hobject, hbody, hnode⟩
  · exact h.refers_of_awaits hid
  · -- neither the object of a completed record changes, nor a reference with a target
    refine .inr ⟨object, name, h.completed hobject, ?_, ?_⟩
    · rw [Arena.body?, h.get?_of_completed hb hobject]
      exact hbody
    · refine h.get?_eq hnode ?_ ?_
      · intro he
        cases he
      · intro _ he
        cases he

end Move

end Walk

namespace Build

variable {S : Setting} {b b' : Build} {t : TypeId} {id object : NodeId}

/-- What a node stands for stays through moves. -/
theorem Represents.of_moves (h : b.Represents S t id) (hb : b.Sound S)
    (hmoves : Relation.ReflTransGen (Walk.Move S) b b') : b'.Represents S t id := by
  induction hmoves with
  | refl => exact h
  | tail hmoves hmove ih =>
    have hsound := Walk.sound_of_moves hmoves hb
    exact ih.mono (fun hn hleaf => hmove.get?_of_leaf hn hleaf) fun hid => hmove.refers hsound hid

/-- The object of a completed record goes on to describe it. -/
theorem Describes.of_moves (h : b.Describes S t object) (hb : b.Sound S)
    (hobject : (t, object) ∈ b.progress.completed)
    (hmoves : Relation.ReflTransGen (Walk.Move S) b b') : b'.Describes S t object := by
  obtain ⟨name, children, hnode, hchildren⟩ := h
  refine ⟨name, children, ?_, hchildren.imp fun _ _ hchild => hchild.of_moves hb hmoves⟩
  have hstay : (t, object) ∈ b'.progress.completed ∧
      b'.arena.get? object = b.arena.get? object := by
    induction hmoves with
    | refl => exact ⟨hobject, rfl⟩
    | tail hmoves hmove ih =>
      have hsound := Walk.sound_of_moves hmoves hb
      exact ⟨hmove.completed ih.1, by rw [hmove.get?_of_completed hsound ih.1, ih.2]⟩
  rw [hstay.2, hnode]

end Build

/-! ## What runs come to -/

namespace Walk

variable {S : Setting} {task : Task} {b b' : Build} {r : Except CompileError NodeId × Build}
  {t : TypeId} {id object : NodeId}

/-- What a run that comes to a node has done. -/
def Task.Outcome (S : Setting) (b b' : Build) (id : NodeId) : Task → Prop
  | .field _ _ f => b'.Represents S f.type id
  | .type _ _ t => S.catalog.isRecord t = false → b'.Represents S t id
  | .fields _ _ object fs => ∃ children,
      List.Forall₂ (fun f child => b'.Represents S f.type child) fs children ∧
      ∀ {n}, b.arena.get? object = some n →
        b'.arena.get? object =
          some { n with properties := Build.writeFields n.properties fs children }

/-- A field whose type is a record holds what refers to it. -/
private theorem Runs.refers {room : Nat} {p : Position} (h : Runs S (.type room p t) b (.ok id, b'))
    (hrecord : S.catalog.isRecord t = true) (hb' : b'.Sound S) :
    (b'.refer S.options.refPrefix id).2.Refers S.options.refPrefix t
      (b'.refer S.options.refPrefix id).1 := by
  -- either way the field holds a reference, stored now or when the record was put off
  cases h.completed_or_awaits hrecord with
  | inl hnode =>
    obtain ⟨name, _, hbody⟩ := hb'.recorded.node hnode
    rw [Build.refer_of_object _ hbody]
    exact .inr ⟨id, name, hnode, Build.body?_store_of_some hbody, Arena.get?_push_next _ _⟩
  | inr hawaits =>
    rw [Build.refer_of_reference _ (hb'.body?_of_awaits hawaits)]
    exact .inl hawaits

/-- A run that comes to a node has done its task. -/
theorem Runs.represents (h : Runs S task b r) (hb : b.Sound S) (hready : task.Ready b)
    (hok : r.1 = .ok id) : task.Outcome S b r.2 id := by
  -- on the run; nodes that were stored on the way stand for their types until the end
  induction h generalizing id with
  | tooDeep | fieldFailed | elementsFailed | expansionFailed | fieldsFailed => exact nomatch hok
  | fieldPlain hrecord _ ih => exact ih hb trivial hok hrecord
  | fieldRecord hrecord htype ih =>
    cases hok
    exact .record hrecord (htype.refers hrecord (htype.sound hb trivial))
  | scalar hshape =>
    cases hok
    exact fun _ => .scalar hshape (Arena.get?_push_next _ _)
  | enumeration hshape =>
    cases hok
    exact fun _ => .enumeration hshape (Arena.get?_push_next _ _)
  | unknownElements hshape =>
    cases hok
    exact fun _ => .unknownElements hshape (Arena.get?_push_next _ _)
  | @elements room p t b e items b' helement hitems ih =>
    cases hok
    have hvisited : (b.visit p t).Sound S := (Move.visit p t).sound hb
    have hrepresents : b'.Represents S e items := ih hvisited trivial rfl
    have hstore : Move S b' (b'.store (.array (some items))) := .leaf _ rfl
    exact fun _ => .elements helement (Arena.get?_push_next _ _)
      -- the array is stored after its items, so these stand for the elements still
      (hrepresents.of_moves (hitems.sound hvisited trivial) (.single hstore))
  | known hrecord | deferred hrecord | expanded hrecord =>
    intro hplain
    rw [hplain] at hrecord
    cases hrecord
  | noFields => exact ⟨[], .nil, fun hn => hn⟩
  | @nextField room p object f fs b child b' r hfield hrest ih ihrest =>
    obtain ⟨hset, hopen⟩ := Runs.move_setProperty (S := S)
      (Build.IsOpen.extends hready hfield.extends) f.name child
    have hb' := hfield.sound hb trivial
    have hsound := hset.sound hb'
    obtain ⟨children, hchildren, hnode⟩ := ihrest hsound hopen hok
    refine ⟨child :: children, .cons ?_ hchildren, fun {n} hn => ?_⟩
    · -- the first child was there before the others, and stands for its type since
      have hchild : b'.Represents S f.type child := ih hb trivial rfl
      exact hchild.of_moves hb' (.head hset (hrest.moves hsound hopen))
    · -- the object has only the properties of earlier fields when the child is given to it
      have hown : (Task.field room p f).own ≠ some object := by
        intro he
        cases he
      have hkeep := hfield.extends.get?_eq (Arena.index_lt_of_get? hn) hown
      have hgiven : (b'.setProperty object f.name child).arena.get? object =
          some (n.addProperty f.name child) := by
        rw [Build.setProperty, Arena.get?_modify, if_pos rfl, hkeep, hn]
        rfl
      exact hnode hgiven

/-- A record whose fields were converted is described by its object when it is closed. -/
private theorem Runs.describes_closeRecord {room : Nat} {p : Position} {notes : List Fixup}
    (h : Runs S (.fields room p b.arena.next (S.policy S.catalog t))
      ((b.visit p t).openRecord S.catalog t) (.ok b.arena.next, b'))
    (hb : b.Sound S) (hrecord : S.catalog.isRecord t = true)
    (hstage : b.progress.stage t = .absent) (hnotes : b'.progress.notes? t = some notes) :
    (b'.closeRecord t b.arena.next notes).Describes S t b.arena.next := by
  obtain ⟨hopened, hopen⟩ := Runs.moves_openRecord hb p hrecord hstage
  have hsound := sound_of_moves hopened hb
  have hb' := h.sound hsound hopen
  obtain ⟨name, ids, rfl, hname, hbody, hids⟩ := ready_to_close hb hstage h hnotes hb'
  have hclose : Move S b' (b'.closeRecord t b.arena.next _) :=
    .closeRecord hnotes hname hbody hids
  -- the object was stored without properties, and the run wrote those of the fields
  obtain ⟨children, hchildren, hwritten⟩ := h.represents hsound hopen rfl
  have hobject := hwritten (Arena.get?_push_next b.arena _)
  have hname' := Arena.body?_of_get? hobject
  rw [hbody, Option.some.injEq] at hname'
  refine ⟨name, children, ?_, hchildren.imp fun _ _ hchild =>
    hchild.of_moves hb' (.single hclose)⟩
  rw [Build.get?_closeRecord hbody hids, if_neg (Build.notMem_of_object hbody hids), hobject,
    hname']
  rfl

/-- Every completed record is described by its object. -/
def Described (S : Setting) (b : Build) : Prop :=
  ∀ t object, (t, object) ∈ b.progress.completed → b.Describes S t object

/-- Moves that complete no type leave all completed records described. -/
private theorem Described.of_moves (h : Described S b) (hb : b.Sound S)
    (hmoves : Relation.ReflTransGen (Move S) b b')
    (hcompleted : b'.progress.completed = b.progress.completed) : Described S b' := by
  intro t object hobject
  rw [hcompleted] at hobject
  exact (h t object hobject).of_moves hb hobject hmoves

/-- After a run, all completed records are described if they were before. -/
theorem Runs.described (h : Runs S task b r) (hb : b.Sound S) (hready : task.Ready b)
    (hd : Described S b) : Described S r.2 := by
  -- on the run; a record is described when it is closed, and moves keep that
  induction h with
  | tooDeep | noFields => exact hd
  | fieldPlain _ _ ih | fieldFailed _ ih | fieldsFailed _ ih => exact ih hb trivial hd
  | fieldRecord hrecord htype ih =>
    have hb' := htype.sound hb trivial
    exact (ih hb trivial hd).of_moves hb' (htype.moves_refer hrecord hb')
      (by rw [Build.progress_refer])
  | @scalar room p t b | @enumeration room p t b | @unknownElements room p t b =>
    exact hd.of_moves hb (.tail (.single (.visit p t)) (.leaf _ rfl)) rfl
  | @elements room p t b e items b' helement hitems ih =>
    have hvisit : Move S b (b.visit p t) := .visit p t
    have hvisited := hvisit.sound hb
    have hd' := ih hvisited trivial (hd.of_moves hb (.single hvisit) rfl)
    exact hd'.of_moves (hitems.sound hvisited trivial) (.single (.leaf _ rfl)) rfl
  | @elementsFailed room p t b e err b' helement hitems ih =>
    have hvisit : Move S b (b.visit p t) := .visit p t
    exact ih (hvisit.sound hb) trivial (hd.of_moves hb (.single hvisit) rfl)
  | @known room p t b => exact hd.of_moves hb (.single (.visit p t)) rfl
  | @deferred room p t b hrecord hstage =>
    exact hd.of_moves hb (.tail (.single (.visit p t))
      (.defer (Progress.stage_eq_expanding_iff.mp hstage).2)) rfl
  | @expanded room p t b b' notes hrecord hstage hfields hnotes ih =>
    obtain ⟨hopened, hopen⟩ := Runs.moves_openRecord hb p hrecord hstage
    have hsound := sound_of_moves hopened hb
    have hb' := hfields.sound hsound hopen
    have hd' := ih hsound hopen (hd.of_moves hb hopened rfl)
    have hdescribes := hfields.describes_closeRecord hb hrecord hstage hnotes
    obtain ⟨name, ids, rfl, hname, hbody, hids⟩ := ready_to_close hb hstage hfields hnotes hb'
    have hclose : Move S b' (b'.closeRecord t b.arena.next _) :=
      .closeRecord hnotes hname hbody hids
    intro u object hobject
    -- completed before, or just now
    rw [Build.completed_closeRecord, List.mem_append, List.mem_singleton] at hobject
    cases hobject with
    | inl hold => exact (hd' u object hold).of_moves hb' hold (.single hclose)
    | inr hnew =>
      cases hnew
      exact hdescribes
  | @expansionFailed room p t b e b' hrecord hstage hfields ih =>
    obtain ⟨hopened, hopen⟩ := Runs.moves_openRecord hb p hrecord hstage
    exact ih (sound_of_moves hopened hb) hopen (hd.of_moves hb hopened rfl)
  | @nextField room p object f fs b child b' r hfield hrest ih ihrest =>
    obtain ⟨hset, hopen⟩ := Runs.move_setProperty (S := S)
      (Build.IsOpen.extends hready hfield.extends) f.name child
    have hb' := hfield.sound hb trivial
    have hd' := ih hb trivial hd
    exact ihrest (hset.sound hb') hopen (hd'.of_moves hb' (.single hset) rfl)

end Walk

end Schemata
