import Schemata.Proofs.Forest
import Schemata.Proofs.Walk.Represents

/-!
# The nodes of a build are a forest

A run that ends well owns every node that it stored, but for the one that it comes to, and that one
is loose unless it is the object of a record.  A field never comes to such an object: a record is
held by a reference of its own.

## Key results

- `Runs.isObject_eq_false`: what is no record comes to no object
- `Runs.forest`: the forest after a run that ends well
-/

namespace Schemata

namespace Walk

variable {S : Setting} {task : Task} {b b' : Build} {r : Except CompileError NodeId × Build}
  {room : Nat} {p : Position} {t : TypeId} {id object : NodeId} {loose : List NodeId}

/-- What a task makes of a forest when it comes to a node. -/
def Task.Grows (b' : Build) (loose : List NodeId) (id : NodeId) : Task → Prop
  | .field .. => b'.arena.Forest (id :: loose)
  | .type .. => b'.arena.Forest (b'.arena.plain [id] ++ loose)
  | .fields .. => b'.arena.Forest loose

/-- The fields that remain have names of their own, which the object does not have yet. -/
def Task.Unwritten (b : Build) : Task → Prop
  | .fields _ _ object fs => ∀ n, b.arena.get? object = some n →
      (n.properties.names ++ fs.map (·.name)).Nodup
  | .field .. | .type .. => True

/-- What is no record comes to no object. -/
theorem Runs.isObject_eq_false (h : Runs S (.type room p t) b (.ok id, b'))
    (hrecord : S.catalog.isRecord t = false) : b'.arena.isObject id = false := by
  -- on how the run ended; records are excluded by the hypothesis
  cases h with
  | scalar | enumeration | unknownElements | elements =>
    exact Arena.isObject_eq_false (Arena.get?_push_next _ _) fun _ he => nomatch he
  | known htrue | deferred htrue | expanded htrue =>
    rw [hrecord] at htrue
    cases htrue

/-- A property more leaves the names of the other fields unwritten. -/
private theorem Task.Unwritten.tail {f : Field} {fs : List Field} {child : NodeId}
    (h : (Task.fields room p object (f :: fs)).Unwritten b)
    (hget : b'.arena.get? object = b.arena.get? object) :
    (Task.fields room p object fs).Unwritten (b'.setProperty object f.name child) := by
  intro n hn
  rw [Build.setProperty, Arena.get?_modify, if_pos rfl, hget] at hn
  obtain ⟨m, hm, rfl⟩ := Option.map_eq_some_iff.mp hn
  have hnodup := h m hm
  have hnew : f.name ∉ m.properties.names := fun hmem =>
    List.disjoint_of_nodup_append hnodup hmem List.mem_cons_self
  rw [Node.addProperty, OrderedMap.names_insert, if_neg hnew, List.append_assoc]
  exact hnodup

/-- Closing a record leaves a forest as it is. -/
private theorem forest_closeRecord (refPrefix : String) (t : TypeId) {name : String}
    {ids : List NodeId} (h : b.arena.Forest loose)
    (hbody : b.arena.body? object = some (.object name))
    (hids : ∀ id ∈ ids, b.arena.body? id = some (.reference none)) :
    (b.closeRecord t object (ids.map (Fixup.naming refPrefix))).arena.Forest loose := by
  -- the objects and the children stay, only targets change
  refine h.retarget ?_ fun id => ?_
  · rw [Arena.ids, Build.closeRecord, Fixup.size_runAll, Arena.ids]
  · rw [Build.get?_closeRecord hbody hids]
    split
    · exact .inr ⟨none, _, hids id ‹_›, rfl⟩
    · exact .inl rfl

/-- The forest after a run that ends well. -/
theorem Runs.forest (h : Runs S task b r) (hb : b.Sound S) (hready : task.Ready b)
    (hpolicy : ∀ t, ((S.policy S.catalog t).map (·.name)).Nodup) (hnames : task.Unwritten b)
    (hforest : b.arena.Forest loose) (hok : r.1 = .ok id) : task.Grows r.2 loose id := by
  -- on the run; the node that a field comes to is loose until the object of the record owns it
  induction h generalizing id loose with
  | tooDeep | fieldFailed | elementsFailed | expansionFailed | fieldsFailed => exact nomatch hok
  | fieldPlain hrecord htype ih =>
    cases hok
    have hgrown := ih hb trivial trivial hforest rfl
    rw [Task.Grows, Arena.plain_of_eq_false (htype.isObject_eq_false hrecord)] at hgrown
    exact hgrown
  | @fieldRecord room p f b id b' hrecord htype ih =>
    cases hok
    have hgrown := ih hb trivial trivial hforest rfl
    have hb' := htype.sound hb trivial
    rw [Task.Grows] at hgrown
    cases htype.completed_or_awaits hrecord with
    | inl hnode =>
      -- the object is not loose, but the reference to it is
      obtain ⟨name, _, hbody⟩ := hb'.recorded.node hnode
      rw [Arena.plain_of_object hbody] at hgrown
      rw [Build.refer_of_object _ hbody]
      have hpushed := hgrown.push (n := .reference (S.options.refPrefix ++ name)) rfl
      rw [Arena.plain_of_eq_false] at hpushed
      · exact hpushed
      · exact Arena.isObject_eq_false (Arena.get?_push_next _ _) fun _ he => nomatch he
    -- a placeholder is loose, as it is a reference to nothing yet
    | inr hawaits =>
      have hbody := hb'.body?_of_awaits hawaits
      obtain ⟨n, hn, he⟩ := Arena.exists_get?_of_body? hbody
      rw [Arena.plain_of_eq_false] at hgrown
      · rw [Build.refer_of_reference _ hbody]
        exact hgrown
      · exact Arena.isObject_eq_false hn fun _ hname => by rw [he] at hname; cases hname
  | scalar | enumeration | unknownElements | deferred =>
    cases hok
    exact hforest.push rfl
  -- the items are loose until the array owns them
  | @elements room p t b e items b' helement hitems ih =>
    cases hok
    have hgrown : b'.arena.Forest (items :: loose) :=
      ih ((Move.visit p t).sound hb) trivial trivial hforest rfl
    exact hgrown.push (n := .array (some items)) rfl
  | @known room p t b id hrecord hnode =>
    cases hok
    obtain ⟨name, _, hbody⟩ := hb.recorded.node (mem_of_valueOf? hnode)
    show b.arena.Forest (b.arena.plain [id] ++ loose)
    rw [Arena.plain_of_object hbody]
    exact hforest
  | @expanded room p t b b' notes hrecord hstage hfields hnotes ih =>
    cases hok
    obtain ⟨hopened, hopen⟩ := Runs.moves_openRecord hb p hrecord hstage
    have hsound := sound_of_moves hopened hb
    have hb' := hfields.sound hsound hopen
    obtain ⟨name, ids, rfl, _, hbody, hids⟩ := ready_to_close hb hstage hfields hnotes hb'
    -- the object is stored without properties, and is given those of the fields
    have hnames : (Task.fields room p b.arena.next (S.policy S.catalog t)).Unwritten
        ((b.visit p t).openRecord S.catalog t) := by
      intro n hn
      rw [← Option.some.inj ((Arena.get?_push_next b.arena _).symm.trans hn)]
      exact hpolicy t
    have hobject : ((b.visit p t).openRecord S.catalog t).arena.Forest loose := by
      have hpushed := hforest.push (n := .object (b.names.request S.catalog t).1) rfl
      rw [Arena.plain_of_object (Arena.body?_of_get? (Arena.get?_push_next _ _))] at hpushed
      exact hpushed
    have hgrown : b'.arena.Forest loose := ih hsound hopen hnames hobject rfl
    -- the fix-ups fill placeholders, which stay owned by whoever owns them
    have hclosed := forest_closeRecord S.options.refPrefix t hgrown hbody hids
    rw [Task.Grows, Arena.plain_of_object]
    · exact hclosed
    · exact (Build.body?_closeRecord_object_iff hbody hids).mpr hbody
  | noFields => exact hforest
  | @nextField room p object f fs b child b' r hfield hrest ih ihrest =>
    obtain ⟨hset, hopen⟩ := Runs.move_setProperty (S := S)
      (Build.IsOpen.extends hready hfield.extends) f.name child
    have hb' := hfield.sound hb trivial
    have hgrown : b'.arena.Forest (child :: loose) := ih hb trivial trivial hforest rfl
    -- the object is the one that was opened, and still has the properties of before
    obtain ⟨name, hbody⟩ := hready.body
    obtain ⟨n, hn, _⟩ := Arena.exists_get?_of_body? hbody
    have hlt := Arena.index_lt_of_body? hbody
    have hget : b'.arena.get? object = b.arena.get? object :=
      hfield.extends.get?_eq hlt fun he => nomatch he
    have hnew : f.name ∉ n.properties.names := fun hmem =>
      List.disjoint_of_nodup_append (hnames n hn) hmem List.mem_cons_self
    have howned : (b'.setProperty object f.name child).arena.Forest loose :=
      hgrown.addProperty (hget.trans hn)
        (Arena.isObject_iff.mpr ⟨name, by rw [hfield.extends.body?_eq hlt, hbody]⟩) hnew
    exact ihrest (hset.sound hb') hopen (hnames.tail hget) howned hok

end Walk

end Schemata
