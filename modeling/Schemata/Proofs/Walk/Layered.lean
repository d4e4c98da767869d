import Schemata.Proofs.Rendering
import Schemata.Proofs.Walk.Represents

/-!
# Items are stored before their arrays

An array is stored when its items are there already, and its items are no object: a record is held
by a reference.  That is so after every run, also after one that fails and leaves nodes that nobody
owns.

## Key results

- `Runs.layered`: a run stores items before their arrays
-/

namespace Schemata

namespace Arena

variable {a a' : Arena} {id : NodeId} {n : Node}

/-- Nothing is stored in an empty arena. -/
theorem Layered.empty : Layered {} where
  items h := by simp [body?, Arena.get?] at h

/-- A node is stored behind its items. -/
private theorem Layered.push (h : a.Layered) (hn : ∀ items, n.body = .array (some items) →
      ∃ body, a.body? items = some body ∧ ∀ name, body ≠ .object name) : (a.push n).Layered := by
  -- what was stored before stays what it is
  have hold : ∀ {items}, items.index < a.size → (a.push n).body? items = a.body? items := by
    intro items hlt
    rw [body?, get?_push_of_lt n hlt, body?]
  refine ⟨fun {id items} hid => ?_⟩
  rw [body?, get?_push] at hid
  split at hid
  · rename_i hnext
    obtain ⟨body, hbody, hplain⟩ := hn items (Option.some.inj hid)
    have hlt := index_lt_of_body? hbody
    refine ⟨hnext ▸ hlt, fun name hname => ?_⟩
    rw [hold hlt, hbody] at hname
    exact hplain name (Option.some.inj hname)
  · obtain ⟨hlt, hplain⟩ := h.items hid
    have hin : items.index < a.size := Nat.lt_trans hlt (index_lt_of_body? hid)
    exact ⟨hlt, fun name => by rw [hold hin]; exact hplain name⟩

/-- References may be given targets, and objects properties. -/
private theorem Layered.retarget (h : a.Layered)
    -- not a node is stored, so only the bodies of nodes that are there matter
    (hbody : ∀ id, a'.body? id = a.body? id ∨ ∃ target target',
      a.body? id = some (.reference target) ∧ a'.body? id = some (.reference target')) :
    a'.Layered := by
  refine ⟨fun {id items} hid => ?_⟩
  rcases hbody id with hsame | ⟨_, _, _, hnew⟩
  · rw [hsame] at hid
    obtain ⟨hlt, hplain⟩ := h.items hid
    refine ⟨hlt, fun name hname => ?_⟩
    rcases hbody items with hsame | ⟨_, _, _, hnew⟩
    · exact hplain name (hsame ▸ hname)
    · rw [hnew] at hname
      cases hname
  · rw [hnew] at hid
    cases hid

end Arena

namespace Walk

variable {S : Setting} {task : Task} {b b' : Build} {r : Except CompileError NodeId × Build}
  {room : Nat} {p : Position} {t : TypeId} {f : Field} {id : NodeId}

/-- What stands for a type is stored, and no object. -/
private theorem exists_body_of_represents (h : b.Represents S t id) (hb : b.Sound S) :
    ∃ body, b.arena.body? id = some body ∧ ∀ name, body ≠ .object name := by
  -- only a record is held by something that may change
  cases h with
  | scalar _ hnode | enumeration _ hnode | elements _ hnode | unknownElements _ hnode =>
    exact ⟨_, Arena.body?_of_get? hnode, fun _ he => nomatch he⟩
  | record _ hrefers =>
    -- a record is held by a placeholder or by a reference with a target
    rcases hrefers with hawaits | ⟨_, _, _, _, hnode⟩
    · exact ⟨_, hb.body?_of_awaits hawaits, fun _ he => nomatch he⟩
    · exact ⟨_, Arena.body?_of_get? hnode, fun _ he => nomatch he⟩

/-- A run stores items before their arrays, whether it fails or not. -/
theorem Runs.layered (h : Runs S task b r) (hb : b.Sound S) (hready : task.Ready b)
    (hlayered : b.arena.Layered) : r.2.arena.Layered := by
  -- on the run; the items of an array are the node that its elements have come to
  induction h with
  | tooDeep | noFields | known => exact hlayered
  | fieldPlain _ _ ih | fieldFailed _ ih => exact ih hb trivial hlayered
  | @fieldRecord room p f b id b' hrecord htype ih =>
    have hgrown : b'.arena.Layered := ih hb trivial hlayered
    have hb' := htype.sound hb trivial
    cases htype.completed_or_awaits hrecord with
    | inl hnode =>
      obtain ⟨name, _, hbody⟩ := hb'.recorded.node hnode
      rw [Build.refer_of_object _ hbody]
      exact hgrown.push fun _ he => nomatch he
    | inr hawaits =>
      rw [Build.refer_of_reference _ (hb'.body?_of_awaits hawaits)]
      exact hgrown
  | scalar | enumeration | unknownElements | deferred =>
    exact hlayered.push fun _ he => nomatch he
  | @elements room p t b e items b' helement hitems ih =>
    have hvisited : (b.visit p t).Sound S := (Move.visit p t).sound hb
    -- the items are the node of the elements, which is no object since objects are referred to
    have hrepresents : b'.Represents S e items := hitems.represents hvisited trivial rfl
    refine (ih hvisited trivial hlayered).push fun items' he => ?_
    cases he
    exact exists_body_of_represents hrepresents (hitems.sound hvisited trivial)
  | elementsFailed helement hitems ih => exact ih ((Move.visit _ _).sound hb) trivial hlayered
  | @expanded room p t b b' notes hrecord hstage hfields hnotes ih =>
    obtain ⟨hopened, hopen⟩ := Runs.moves_openRecord hb p hrecord hstage
    have hsound := sound_of_moves hopened hb
    have hfilled := ih hsound hopen (hlayered.push fun _ he => nomatch he)
    obtain ⟨name, ids, rfl, _, hbody, hids⟩ :=
      ready_to_close hb hstage hfields hnotes (hfields.sound hsound hopen)
    -- closing fills placeholders, and references are no arrays
    refine hfilled.retarget fun id => ?_
    rw [Build.body?_closeRecord hbody hids]
    split
    · exact .inr ⟨none, _, hids id ‹_›, rfl⟩
    · exact .inl rfl
  | @expansionFailed room p t b e b' hrecord hstage hfields ih =>
    obtain ⟨hopened, hopen⟩ := Runs.moves_openRecord hb p hrecord hstage
    exact ih (sound_of_moves hopened hb) hopen (hlayered.push fun _ he => nomatch he)
  | @nextField room p object f fs b child b' r hfield hrest ih ihrest =>
    obtain ⟨hset, hopen⟩ := Runs.move_setProperty (S := S)
      (Build.IsOpen.extends hready hfield.extends) f.name child
    have hgiven : (b'.setProperty object f.name child).arena.Layered :=
      (ih hb trivial hlayered).retarget fun id => .inl (Arena.body?_modify_addProperty _ _ _ _ _)
    exact ihrest (hset.sound (hfield.sound hb trivial)) hopen hgiven
  | fieldsFailed _ ih => exact ih hb trivial hlayered

end Walk

end Schemata
