import Schemata.Proofs.Registry.Lifecycle
import Schemata.Proofs.Session.Finish

/-!
# The calls of a session

What the walks of a session do to its progress and its arena are calls on the tracker of its build.
So all that is known of such calls holds of a session, also of one with roots that failed, and a
registry that is given the same calls records its progress.

## Key results

- `Move.calls`: a move makes calls
- `exists_calls`: so does a session, and it ends well exactly if all fix-ups were run
-/

namespace Schemata

/-- Calls lead from one build to another, and the fix-ups that they run are logged. -/
def Build.Calls (b : Build) (calls : List (Call Fixup Arena)) (b' : Build) : Prop :=
  b'.tracker = b.tracker.after Fixup.run calls ∧
    b'.patched = b.patched ++
      ((b.tracker.transcript Fixup.run calls).flatMap (·.fired)).map fun f => (f.note, f.node)

namespace Build.Calls

variable {b b' b'' : Build} {calls more : List (Call Fixup Arena)}

/-- No calls leave a build as it is. -/
private theorem refl (b : Build) : b.Calls [] b := ⟨rfl, (List.append_nil _).symm⟩

/-- Calls can be made one after the other. -/
private theorem trans (h : b.Calls calls b') (h' : b'.Calls more b'') :
    b.Calls (calls ++ more) b'' := by
  obtain ⟨htracker, hpatched⟩ := h
  obtain ⟨htracker', hpatched'⟩ := h'
  refine ⟨by rw [htracker', htracker, Tracker.after_append], ?_⟩
  rw [hpatched', hpatched, htracker, Tracker.transcript_append, List.flatMap_append,
    List.map_append, List.append_assoc]

/-- One call, with its answer and the tracker that it leaves. -/
private theorem of_call {c : Call Fixup Arena} {r : Entry Fixup Arena × Tracker Fixup Arena}
    (hcall : b.tracker.call Fixup.run c = r) (htracker : b'.tracker = r.2)
    (hpatched : b'.patched = b.patched ++ r.1.fired.map fun f => (f.note, f.node)) :
    b.Calls [c] b' := by
  subst hcall
  refine ⟨htracker, ?_⟩
  rw [hpatched, Tracker.transcript, Tracker.transcript, List.flatMap_singleton]

/-- A change of the arena is a call. -/
private theorem edit (b : Build) (change : Arena → Arena) :
    b.Calls [.edit change] { b with arena := change b.arena } :=
  of_call rfl rfl (List.append_nil _).symm

end Build.Calls

namespace Walk

variable {S : Setting} {b b' : Build}

/-- A move makes calls. -/
theorem Move.calls (h : Move S b b') : ∃ calls, b.Calls calls b' := by
  -- one case for each move: most edit the arena, and records have calls of their own
  cases h with
  | visit p t => exact ⟨[], rfl, by simp [Build.patched, Build.visit, Tracker.transcript]⟩
  | leaf n hn => exact ⟨_, .edit b (·.push n)⟩
  | refer hnode hbody => exact ⟨_, .edit b (·.push _)⟩
  | setProperty hopen name child => exact ⟨_, .edit b (·.modify _ _)⟩
  | @defer t hnotes =>
    -- the placeholder is stored, and then waited for
    exact ⟨_, (Build.Calls.edit b (·.push .placeholder)).trans
      (.of_call (Tracker.call_await hnotes) rfl (List.append_nil _).symm)⟩
  | @openRecord t hrecord hstage =>
    -- the object is stored, and then its type is started
    refine ⟨_, (Build.Calls.edit b (·.push (.object (b.names.request S.catalog t).1))).trans
      (.of_call (Tracker.call_start hstage) rfl ?_)⟩
    simp [Build.patched, Build.openRecord]
  | @closeRecord t object name ids hnotes hname hbody hids =>
    refine ⟨_, .of_call (Tracker.call_complete object hnotes) ?_ ?_⟩
    · rw [Tracker.graph_fire]
      -- completing runs the fix-ups that were waiting, and they are what is logged
      rfl
    · rw [Tracker.map_fire Prod.mk]
      simp [Build.patched, Build.closeRecord, Function.comp_def]

/-- So does a sequence of moves. -/
private theorem exists_calls_of_moves (h : Relation.ReflTransGen (Move S) b b') :
    ∃ calls, b.Calls calls b' := by
  induction h with
  | refl => exact ⟨[], .refl b⟩
  | tail _ hmove ih =>
    obtain ⟨calls, hcalls⟩ := ih
    obtain ⟨more, hmore⟩ := hmove.calls
    exact ⟨_, hcalls.trans hmore⟩

end Walk

namespace Session

variable {s : Session} {done : List TypeId}

/-- A root makes calls, also one that fails. -/
theorem CompilesRoot.exists_calls {t : TypeId} {r : Except CompileError NodeId × Session}
    (h : CompilesRoot s t r) (hs : s.build.Sound s.setting) :
    ∃ calls, s.build.Calls calls r.2.build := by
  cases h with
  | unknown => exact ⟨[], .refl _⟩
  | ok ht hrun | failed ht hrun => exact Walk.exists_calls_of_moves (hrun.moves hs trivial)

/-- Any roots make calls, one root after the other. -/
theorem Sound.exists_calls (h : s.Sound done) (ts : List TypeId) :
    ∃ calls, s.build.Calls calls (s.after ts).build := by
  -- the calls of the first root come before those of the others
  induction ts generalizing s done with
  | nil => exact ⟨[], .refl _⟩
  | cons t ts ih =>
    obtain ⟨calls, hcalls⟩ := (compilesRoot h.strategies t).exists_calls h.build
    obtain ⟨_, hnext⟩ := h.of_compileRoot t
    obtain ⟨more, hmore⟩ := ih hnext
    exact ⟨_, hcalls.trans hmore⟩

/-- After any roots, also such as fail, the progress and the arena of a session are those that some
calls leave, its log lists the fix-ups that they ran, and a registry to which the calls are made
comes to the same.  The session ends well exactly if every fix-up that was left was run. -/
theorem exists_calls (policy : FieldPolicy) (options : Options) (c : Catalog) (ts : List TypeId) :
    let s := (({ policy, options } : Compiler).session c).after ts
    ∃ calls, ({} : Build).Calls calls s.build ∧
      Registry.Follows (Registry.after Fixup.run ({}, {}) calls) s.build.tracker ∧
      ((∃ doc, s.finish = .ok doc) ↔
        ∀ t, ¬ Tracker.Unrun t (({} : Build).tracker.transcript Fixup.run calls)) := by
  intro s
  obtain ⟨calls, hcalls⟩ := (sound_session policy options c).exists_calls ts
  -- the log of the calls tells which fix-ups are left
  have haccounted := Tracker.accounted_after Fixup.run {} calls
  have hfollows := ((Registry.Follows.empty ({} : Arena)).calls Fixup.run calls).2
  refine ⟨calls, hcalls, by rw [hcalls.1]; exact hfollows, ?_⟩
  have hprogress : s.build.progress = (({} : Build).tracker.after Fixup.run calls).progress :=
    congrArg Tracker.progress hcalls.1
  rw [show ({} : Build).tracker = { graph := {} } from rfl] at hprogress ⊢
  rw [← haccounted.firstPending?_eq_none_iff, ← hprogress, exists_finish_eq_ok_iff]

end Session

end Schemata
