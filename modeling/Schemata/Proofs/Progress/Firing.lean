import Schemata.Session
import Schemata.Proofs.Progress.Lifecycle

/-!
# When notes are run

A note that is left for a type is run once, when the type is completed, or waits for ever.  The
notes of a type are run in the order in which they were left, without notes of other types between
them, each on the graph that the one before left.  What still waits is what the transcript of the
calls lists as left and not as run, so the first pending type tells whether all notes were run.

## Key results

- `Accounted.step`: a call keeps count of the notes that were left, were run, or wait
- `Accounted.fired_eq`: completing a type runs all notes that were ever left for it
- `notes_run_once_in_order`: all of this, after any calls
-/

namespace Schemata

/-- The notes that wait for a type, in the order in which they were left. -/
def Progress.waitingFor {φ : Type} (p : Progress φ) (t : TypeId) : List φ := (p.notes? t).getD []

namespace Progress

variable {φ : Type} {p : Progress φ} {t u : TypeId} {note : φ} {node : NodeId}

/-- The notes that wait are those that a type has. -/
theorem waitingFor_of_notes {notes : List φ} (h : p.notes? t = some notes) :
    p.waitingFor t = notes := by
  rw [waitingFor, h]
  rfl

/-- The notes that wait are counted. -/
theorem length_waitingFor : (p.waitingFor t).length = p.pendingCount t := rfl

/-- A type that is started changes nothing for the notes that wait. -/
@[simp] theorem waitingFor_started : (p.started t).waitingFor u = p.waitingFor u := by
  rw [waitingFor, waitingFor, notes?_started]
  -- a type without an entry gets one, without notes
  cases p.notes? u with
  | some notes => rfl
  | none => by_cases h : t = u <;> simp [h]

/-- A note waits behind those of its type. -/
theorem waitingFor_noted (h : (p.notes? t).isSome) :
    (p.noted t note).waitingFor u = p.waitingFor u ++ if t = u then [note] else [] := by
  rw [waitingFor, waitingFor, notes?_noted]
  by_cases htu : t = u
  · subst htu
    obtain ⟨notes, hnotes⟩ := Option.isSome_iff_exists.mp h
    simp [hnotes]
  · simp [htu]

/-- No note waits for a completed type. -/
theorem waitingFor_finished :
    (p.finished t node).waitingFor u = if t = u then [] else p.waitingFor u := by
  rw [waitingFor, waitingFor, notes?_finished]
  split <;> rfl

/-- The notes in the queue are those that wait. -/
private theorem Consistent.mem_queued_iff (h : p.Consistent) :
    (t, note) ∈ p.queued ↔ note ∈ p.waitingFor t := by
  rw [Progress.mem_queued_iff h.expandingTypes_nodup, waitingFor]
  cases p.notes? t <;> simp

/-- No type is pending exactly if no note waits. -/
private theorem Consistent.firstPending?_eq_none_iff (h : p.Consistent) :
    p.firstPending? = none ↔ ∀ t, p.waitingFor t = [] := by
  rw [Progress.firstPending?_eq_none_iff, List.eq_nil_iff_forall_not_mem]
  -- the queue holds the notes of all types, and is empty if each of them has none
  constructor
  · intro hnone t
    refine List.eq_nil_iff_forall_not_mem.mpr fun note hn => ?_
    exact hnone (t, note) (h.mem_queued_iff.mpr hn)
  · rintro hnone ⟨t, note⟩ hq
    have hn := h.mem_queued_iff.mp hq
    rw [hnone t] at hn
    cases hn

/-- The first pending type is the least one that a note waits for. -/
theorem Consistent.firstPending?_eq_some_iff (h : p.Consistent) :
    p.firstPending? = some t ↔
      p.waitingFor t ≠ [] ∧ ∀ u, p.waitingFor u ≠ [] → t.index ≤ u.index := by
  -- the order is one of types, so the notes themselves do not matter
  have hqueued : ∀ u, (∃ note, (u, note) ∈ p.queued) ↔ p.waitingFor u ≠ [] := by
    intro u
    simp only [h.mem_queued_iff, List.ne_nil_iff_exists_cons]
    constructor
    · rintro ⟨note, hn⟩
      exact List.ne_nil_iff_exists_cons.mp (List.ne_nil_of_mem hn)
    · rintro ⟨note, rest, he⟩
      exact ⟨note, by rw [he]; exact List.mem_cons_self⟩
  rw [Progress.firstPending?_eq_some_iff, hqueued]
  -- the least of these types is the same, by whichever notes they are told
  refine and_congr_right fun _ => ⟨fun hle u hu => ?_, fun hle e he => ?_⟩
  · obtain ⟨note, hq⟩ := (hqueued u).mpr hu
    exact hle _ hq
  · exact hle e.1 ((hqueued e.1).mp ⟨e.2, he⟩)

end Progress

/-- A session ends well exactly if no type is pending. -/
theorem Session.exists_finish_eq_ok_iff {z : Session} :
    (∃ doc, z.finish = .ok doc) ↔ z.build.progress.firstPending? = none := by
  rw [finish]
  cases z.build.progress.firstPending? <;> simp

namespace Tracker

variable {φ γ : Type} {run : φ → NodeId → γ → γ} {s s' : Tracker φ γ} {es : List (Entry φ γ)}
  {e : Entry φ γ} {t u : TypeId} {node : NodeId}

/-! ## Notes in a transcript -/

/-- The notes that calls left for a type, in order. -/
def acceptedFor (t : TypeId) (es : List (Entry φ γ)) : List φ :=
  ((es.filterMap (·.accepted?)).filter (·.1 = t)).map (·.2)

/-- The notes of a type that calls ran, in order. -/
def firedFor (t : TypeId) (es : List (Entry φ γ)) : List (Firing φ γ) :=
  (es.flatMap (·.fired)).filter (·.type = t)

/-- Not every note that was left for a type was run. -/
def Unrun (t : TypeId) (es : List (Entry φ γ)) : Prop :=
  (firedFor t es).map (·.note) ≠ acceptedFor t es

/-- Calls one after the other leave their notes one after the other. -/
@[simp] theorem acceptedFor_append (es es' : List (Entry φ γ)) :
    acceptedFor t (es ++ es') = acceptedFor t es ++ acceptedFor t es' := by
  simp [acceptedFor]

/-- So do they run them. -/
@[simp] theorem firedFor_append (es es' : List (Entry φ γ)) :
    firedFor t (es ++ es') = firedFor t es ++ firedFor t es' := by
  simp [firedFor]

/-- A call that leaves a note for a type adds it to the notes for that type only. -/
private theorem acceptedFor_singleton :
    acceptedFor u [e] = match e.accepted? with
      | some (t, note) => if t = u then [note] else []
      | none => [] := by
  cases he : e.accepted? with
  | none => simp [acceptedFor, he]
  | some r =>
    by_cases h : r.1 = u <;> simp [acceptedFor, he, h]

/-- The notes that the completion of a type runs are all of this type. -/
private theorem filter_fire {notes : List φ} {g : γ} :
    (fire run t node notes g).1.filter (·.type = u) =
      if t = u then (fire run t node notes g).1 else [] := by
  -- all notes of a completion are of its type, so all are kept or none is
  split
  · rename_i htu
    exact List.filter_eq_self.mpr fun f hf => by simp [(forall_mem_fire f hf).1, htu]
  · rename_i htu
    exact List.filter_eq_nil_iff.mpr fun f hf => by simp [(forall_mem_fire f hf).1, htu]

/-! ## Keeping count -/

/-- Every note that calls left was run or waits, and notes were run for completed types only. -/
structure Accounted (es : List (Entry φ γ)) (s : Tracker φ γ) : Prop where
  consistent : s.progress.Consistent
  completed : ∀ f ∈ es.flatMap (·.fired), (f.type, f.node) ∈ s.progress.completed
  accepted : ∀ t, acceptedFor t es = (firedFor t es).map (·.note) ++ s.progress.waitingFor t

namespace Accounted

/-- At the beginning there are no notes. -/
private theorem empty (g : γ) : Accounted ([] : List (Entry φ γ)) { graph := g } where
  consistent := .empty
  completed _ h := nomatch h
  accepted _ := rfl

/-- A call keeps count of the notes. -/
theorem step (h : Accounted es s) (hstep : Step run s e s') : Accounted (es ++ [e]) s' where
  consistent := hstep.consistent h.consistent
  completed f hf := by
    rw [List.flatMap_append, List.mem_append] at hf
    rw [hstep.completed_eq, List.mem_append]
    cases hf with
    | inl hold => exact .inl (h.completed f hold)
    | inr hnew =>
      -- only a completion runs notes, and its type is the last one listed
      refine .inr ?_
      cases hstep with
      | finished hnotes =>
        obtain ⟨htype, hnode⟩ := forall_mem_fire f (by simpa using hnew)
        simp [Entry.completed?, htype, hnode]
      | started | noted | edited | refused => simp at hnew
  accepted u := by
    -- what was left before is accounted for, and the new call is gone through case by case
    rw [acceptedFor_append, firedFor_append, h.accepted u, acceptedFor_singleton]
    cases hstep with
    | started | edited => simp [Entry.accepted?, firedFor]
    | noted hnotes => simp [Entry.accepted?, firedFor, Progress.waitingFor_noted hnotes]
    | @refused c _ _ _ _ => cases c <;> simp [Entry.accepted?, firedFor]
    | @finished t node notes hnotes =>
      -- the notes that waited are those that are run
      have hwaiting : s.progress.waitingFor t = notes := Progress.waitingFor_of_notes hnotes
      simp only [Entry.accepted?, firedFor, List.flatMap_singleton, filter_fire,
        Progress.waitingFor_finished, List.append_nil]
      split
      · rename_i htu
        simp [← htu, hwaiting, map_note_fire]
      · simp

/-- Notes of a type that is being expanded have not been run. -/
private theorem firedFor_eq_nil (h : Accounted es s) (ht : t ∈ s.progress.expandingTypes) :
    firedFor t es = [] := by
  -- a note of the type was run when the type was completed, which it is not
  refine List.filter_eq_nil_iff.mpr fun f hf htype => ?_
  have hcompleted : f.type ∈ s.progress.completedTypes :=
    List.mem_map.mpr ⟨_, h.completed f hf, rfl⟩
  rw [of_decide_eq_true htype] at hcompleted
  exact h.consistent.not_both ⟨hcompleted, ht⟩

/-- Not all notes of a type were run exactly if some wait. -/
private theorem unrun_iff (h : Accounted es s) : Unrun t es ↔ s.progress.waitingFor t ≠ [] := by
  rw [Unrun, h.accepted t, Ne, List.self_eq_append_right]

/-- No type is pending exactly if all notes were run. -/
theorem firstPending?_eq_none_iff (h : Accounted es s) :
    s.progress.firstPending? = none ↔ ∀ t, ¬ Unrun t es := by
  rw [h.consistent.firstPending?_eq_none_iff]
  simp only [h.unrun_iff, not_not]

/-- The first pending type is the least one with a note that was left and not run. -/
private theorem firstPending?_eq_some_iff (h : Accounted es s) :
    s.progress.firstPending? = some t ↔ Unrun t es ∧ ∀ u, Unrun u es → t.index ≤ u.index := by
  rw [h.consistent.firstPending?_eq_some_iff]
  simp only [h.unrun_iff]

/-- Completing a type runs all notes that were ever left for it, in order. -/
theorem fired_eq (h : Accounted es s) (hstep : Step run s e s') {n : Nat}
    (hcall : e.call = .complete t node) (hok : e.answer = .ok n) :
    n = e.fired.length ∧ n = s.progress.pendingCount t ∧
      e.fired.map (·.note) = acceptedFor t es ∧ (∀ f ∈ e.fired, f.type = t ∧ f.node = node) ∧
      HandedOn run s.graph e.fired s'.graph := by
  cases hstep with
  -- only a completion that is not refused answers with a number of notes
  | started | noted | edited => cases hcall
  | refused => cases hok
  | @finished u id notes hnotes =>
    cases hcall
    cases hok
    have hwaiting : s.progress.waitingFor t = notes := Progress.waitingFor_of_notes hnotes
    -- none was run before, so what was left for the type is what waits
    have hfired := h.firedFor_eq_nil (Progress.mem_expandingTypes_of_notes hnotes)
    refine ⟨length_fire.symm, ?_, ?_, forall_mem_fire, handedOn_fire⟩
    · rw [← Progress.length_waitingFor, hwaiting]
    · rw [h.accepted, hfired, hwaiting, map_note_fire]
      rfl

end Accounted

/-- Only a completion runs notes, and only if it fits. -/
private theorem Step.fired_eq_nil (h : Step run s e s')
    (hcall : ∀ t node n, e.call = .complete t node → e.answer ≠ .ok n) : e.fired = [] := by
  cases h with
  | started | noted | edited | refused => rfl
  | finished => exact absurd rfl (hcall _ _ _ rfl)

/-- A call that is about a type and runs no note leaves the graph alone. -/
private theorem Step.graph_eq (h : Step run s e s') (ht : e.call.type? = some t)
    (hfired : e.fired = []) : s'.graph = s.graph := by
  cases h with
  | started | noted | refused => rfl
  | edited => cases ht
  | @finished u id notes hnotes =>
    -- a completion that runs nothing had no notes to run
    have hnone : notes = [] := List.length_eq_zero_iff.mp (length_fire.symm.trans
      (congrArg List.length hfired))
    rw [hnone]
    rfl

/-! ## Runs -/

/-- After any calls, all notes are accounted for. -/
theorem accounted_after (run : φ → NodeId → γ → γ) (g : γ) (calls : List (Call φ γ)) :
    Accounted (({ graph := g } : Tracker φ γ).transcript run calls)
      (({ graph := g } : Tracker φ γ).after run calls) :=
  run_induction (.empty g) (fun hes hstep => hes.step hstep) calls

/-- After any calls, the notes that were left for a type are those that were run, followed by those
that wait for it.  The call that completes a type, and no other call, runs notes: all that were left
for this type, in order, each with the node of the type and on the graph that the one before left.
Its answer is their number.  The first pending type is the least one with a note that was left and
not run; there is none, and a session that has come as far ends well, exactly if all notes were
run. -/
theorem notes_run_once_in_order (run : φ → NodeId → γ → γ) (g : γ) (calls : List (Call φ γ)) :
    let s := ({ graph := g } : Tracker φ γ).after run calls
    let es := ({ graph := g } : Tracker φ γ).transcript run calls
    (∀ t, acceptedFor t es = (firedFor t es).map (·.note) ++ s.progress.waitingFor t) ∧
    (∀ t node n, (s.call run (.complete t node)).1.answer = .ok n →
      let fired := (s.call run (.complete t node)).1.fired
      n = fired.length ∧ n = s.progress.pendingCount t ∧
      fired.map (·.note) = acceptedFor t es ∧ (∀ f ∈ fired, f.type = t ∧ f.node = node) ∧
      HandedOn run s.graph fired (s.call run (.complete t node)).2.graph) ∧
    (∀ c, (∀ t node n, c = .complete t node → (s.call run c).1.answer ≠ .ok n) →
      (s.call run c).1.fired = [] ∧
      ∀ t, c.type? = some t → (s.call run c).2.graph = s.graph) ∧
    (∀ t, s.progress.firstPending? = some t ↔ Unrun t es ∧ ∀ u, Unrun u es → t.index ≤ u.index) ∧
    (s.progress.firstPending? = none ↔ ∀ t, ¬ Unrun t es) ∧
    ∀ z : Session, z.build.progress.firstPending? = s.progress.firstPending? →
      ((∃ doc, z.finish = .ok doc) ↔ ∀ t, ¬ Unrun t es) := by
  intro s es
  -- all parts are read off the account of the notes
  have hes : Accounted es s := accounted_after run g calls
  refine ⟨hes.accepted, fun t node n hok => ?_, fun c hcall => ?_,
    fun t => hes.firstPending?_eq_some_iff, hes.firstPending?_eq_none_iff, fun z hz => ?_⟩
  · exact hes.fired_eq (call_step s _) (call_fst_call s _) hok
  · have hstep : Step run s _ _ := call_step s c
    have hfired : (s.call run c).1.fired = [] :=
      hstep.fired_eq_nil fun t node n hc => hcall t node n (by rw [← hc, call_fst_call])
    exact ⟨hfired, fun t ht => hstep.graph_eq (by rw [call_fst_call, ht]) hfired⟩
  · rw [← hes.firstPending?_eq_none_iff, ← hz, Session.exists_finish_eq_ok_iff]

/-- The notes for one of two types are run in the order in which they were left, although a note for
the other was left between them; the other type is then the first pending one. -/
theorem notes_run_once_in_order_twoTypes :
    let s := ({ graph := [] } : Tracker Nat _).after appendNote (twoTypes.take 5)
    let s' := ({ graph := [] } : Tracker Nat _).after appendNote twoTypes
    (s.call appendNote (.complete ⟨2⟩ ⟨5⟩)).1.fired.map (·.note) = [20, 22] ∧
    s'.graph = [(20, 5), (22, 5)] ∧
    (s'.call appendNote (.await ⟨2⟩ 23)).1.fired = [] ∧
    ∀ u, Unrun u (({ graph := [] } : Tracker Nat _).transcript appendNote twoTypes) →
      1 ≤ u.index := by
  obtain ⟨_, hcomplete, _⟩ := notes_run_once_in_order appendNote [] (twoTypes.take 5)
  obtain ⟨_, _, hother, hfirst, _⟩ := notes_run_once_in_order appendNote [] twoTypes
  refine ⟨(hcomplete ⟨2⟩ ⟨5⟩ 2 (by decide)).2.2.1, by decide,
    (hother (.await ⟨2⟩ 23) fun _ _ _ h => nomatch h).1, ((hfirst ⟨1⟩).mp (by decide)).2⟩

end Tracker

end Schemata
