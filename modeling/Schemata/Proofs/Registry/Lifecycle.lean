import Schemata.Proofs.Registry
import Schemata.Proofs.Progress.Firing

/-!
# Registries through their calls

A registry answers the calls that a tracker answers, and works on its four containers where a
tracker works on two lists.  After any calls the containers fit together, the two have given the
same answers, and the containers record the progress of the tracker.

## Key results

- `call_step`: all that a call can do to the containers
- `valid_after`: after any calls, the containers fit together
- `Follows.calls`: a registry answers all calls as the tracker that it follows does
- `containers_follow_calls`: what the containers hold after any calls, and what a further call does
-/

namespace Schemata.Registry

variable {φ γ : Type}

section
variable (run : φ → NodeId → γ → γ)

/-- Answers a call, with the containers and the graph that are left.  Also a call that does not fit
leaves what the registry has come to. -/
def call (s : Registry φ × γ) (c : Call φ γ) : Entry φ γ × (Registry φ × γ) :=
  match c with
  | .start t =>
    let r := s.1.start t
    (⟨c, r.1.map fun _ => 0, []⟩, (r.2, s.2))
  | .await t note =>
    let r := s.1.await t note
    (⟨c, r.1.map fun _ => 0, []⟩, (r.2, s.2))
  | .complete t node =>
    match s.1.complete t node with
    | (.ok notes, r) =>
      let fired := Tracker.fire run t node notes s.2
      (⟨c, .ok notes.length, fired.1⟩, (r, fired.2))
    | (.error e, r) => (⟨c, .error e, []⟩, (r, s.2))
  | .edit change => (⟨c, .ok 0, []⟩, (s.1, change s.2))

/-- The registry and the graph after some calls. -/
def after (s : Registry φ × γ) (calls : List (Call φ γ)) : Registry φ × γ :=
  calls.foldl (fun s c => (call run s c).2) s

/-- The transcript of some calls. -/
def transcript (s : Registry φ × γ) : List (Call φ γ) → List (Entry φ γ)
  | [] => []
  | c :: calls => (call run s c).1 :: transcript (call run s c).2 calls

end

variable {run : φ → NodeId → γ → γ} {r : Registry φ} {p : Progress φ} {g : γ}
  {s s' : Registry φ × γ} {e : Entry φ γ} {t : TypeId} {node : NodeId} {note : φ}

/-! ## Steps -/

/-- What a call can do to a registry and the graph. -/
inductive Step (run : φ → NodeId → γ → γ) (s : Registry φ × γ) :
    Entry φ γ → Registry φ × γ → Prop where
  /-- An absent type is started. -/
  | started {t : TypeId} (hc : t ∉ s.1.completed) (he : t ∉ s.1.expanding) :
      Step run s ⟨.start t, .ok 0, []⟩ (s.1.started t, s.2)
  /-- A note is left for a type that is being expanded. -/
  | noted {t : TypeId} {note : φ} (he : t ∈ s.1.expanding) :
      Step run s ⟨.await t note, .ok 0, []⟩ (s.1.pushNote t note, s.2)
  /-- A type is completed, and its notes are run. -/
  | finished {t : TypeId} {node : NodeId} {notes : List φ} (he : t ∈ s.1.expanding)
      (hnotes : (s.1.pending.lookup t).getD [] = notes) :
      Step run s ⟨.complete t node, .ok notes.length, (Tracker.fire run t node notes s.2).1⟩
        (s.1.finished t node, (Tracker.fire run t node notes s.2).2)
  /-- The graph is changed, but no container. -/
  | edited (change : γ → γ) : Step run s ⟨.edit change, .ok 0, []⟩ (s.1, change s.2)
  /-- A call does not fit the stage of its type, and leaves all as it was. -/
  | refused {c : Call φ γ} {t : TypeId} {m : Misuse} (htype : c.type? = some t)
      (hstage : (s.1.stage t).after c = .error m) : Step run s ⟨c, .error m, []⟩ s

/-- Starting an absent type is the first kind of step. -/
private theorem call_start (hc : t ∉ s.1.completed) (he : t ∉ s.1.expanding) :
    call run s (.start t) = (⟨.start t, .ok 0, []⟩, (s.1.started t, s.2)) := by
  simp only [call, start_of_absent hc he]
  rfl

/-- Leaving a note for a type in the set is the second. -/
private theorem call_await (he : t ∈ s.1.expanding) :
    call run s (.await t note) = (⟨.await t note, .ok 0, []⟩, (s.1.pushNote t note, s.2)) := by
  simp only [call, await_of_mem he]
  rfl

/-- Completing a type in the set is the third. -/
private theorem call_complete (he : t ∈ s.1.expanding) :
    call run s (.complete t node) =
      let notes := (s.1.pending.lookup t).getD []
      (⟨.complete t node, .ok notes.length, (Tracker.fire run t node notes s.2).1⟩,
        (s.1.finished t node, (Tracker.fire run t node notes s.2).2)) := by
  simp only [call, complete_of_mem he]

/-- Every call is a step. -/
theorem call_step (run : φ → NodeId → γ → γ) (s : Registry φ × γ) (c : Call φ γ) :
    Step run s (call run s c).1 (call run s c).2 := by
  cases c with
  | start t =>
    -- the two tests come one after the other, and the set is changed by the second of them
    by_cases hc : t ∈ s.1.completed
    · obtain ⟨node, hnode⟩ := Finmap.mem_iff.mp hc
      have hstage := stage_eq_completed_iff.mpr hnode
      simp only [call, start_of_not_absent (r := s.1) (t := t) (by simp [hstage]), if_pos hc]
      exact .refused rfl (by rw [hstage]; rfl)
    · by_cases he : t ∈ s.1.expanding
      · have hstage : s.1.stage t = .expanding := by
          simp [stage, Finmap.lookup_eq_none.mpr hc, he]
        simp only [call, start_of_not_absent (r := s.1) (t := t) (by simp [hstage]), if_neg hc]
        exact .refused rfl (by rw [hstage]; rfl)
      · rw [call_start hc he]
        exact .started hc he
  | await t note =>
    by_cases he : t ∈ s.1.expanding
    · rw [call_await he]
      exact .noted he
    · simp only [call, await_of_notMem he]
      -- outside the set, a type is absent or completed
      refine .refused rfl ?_
      cases hnode : s.1.completed.lookup t <;> simp [stage, hnode, he, Stage.after]
  | complete t node =>
    by_cases he : t ∈ s.1.expanding
    · rw [call_complete he]
      exact .finished he rfl
    · simp only [call, complete_of_notMem he]
      refine .refused rfl ?_
      -- the second test, in the map, only decides on the reason
      by_cases hc : t ∈ s.1.completed
      · obtain ⟨id, hid⟩ := Finmap.mem_iff.mp hc
        simp [stage, hid, hc, Stage.after]
      · simp [stage_eq_absent_iff.mpr ⟨hc, he⟩, hc, Stage.after]
  | edit change => exact .edited change

/-- The transcript tells the call that was made. -/
@[simp] theorem call_fst_call (run : φ → NodeId → γ → γ) (s : Registry φ × γ) (c : Call φ γ) :
    (call run s c).1.call = c := by
  cases c with
  | start t | await t note | edit change => rfl
  | complete t node =>
    simp only [call]
    split <;> rfl

/-- A step keeps the containers in step. -/
private theorem Step.valid (h : Step run s e s') (hs : s.1.Valid) : s'.1.Valid := by
  -- each kind of step has tested what it needs
  cases h with
  | started hc => exact hs.started hc
  | noted he => exact hs.pushNote he
  | finished he => exact hs.finished he
  | edited | refused => exact hs

/-- A call that does not fit changes neither a container nor the graph. -/
private theorem Step.eq_of_error (h : Step run s e s') {m : Misuse} (hm : e.answer = .error m) :
    s' = s := by
  cases h with
  | refused => rfl
  | started | noted | finished | edited => cases hm

/-! ## Runs -/

/-- After any calls, the containers fit together. -/
theorem valid_after (hs : s.1.Valid) (calls : List (Call φ γ)) : (after run s calls).1.Valid := by
  -- on the calls, from the first one
  induction calls generalizing s with
  | nil => exact hs
  | cons c calls ih => exact ih ((call_step run s c).valid hs)

/-! ## Recording a progress -/

/-- The containers of a registry hold what the lists of a progress hold. -/
structure Records (r : Registry φ) (p : Progress φ) : Prop where
  completed : ∀ t, r.completed.lookup t = p.node? t
  order : r.order = p.completedTypes
  expanding : ∀ t, t ∈ r.expanding ↔ t ∈ p.expandingTypes
  pending : ∀ t, (r.pending.lookup t).getD [] = p.waitingFor t

namespace Records

/-- Nothing has been recorded at the beginning. -/
private theorem empty : ({} : Registry φ).Records {} where
  completed _ := Finmap.lookup_empty _
  order := rfl
  expanding _ := iff_of_false (Finset.notMem_empty _) List.not_mem_nil
  pending _ := by rw [Finmap.lookup_empty]; rfl

/-- The containers tell the stages that the lists tell. -/
private theorem stage_eq (h : r.Records p) : r.stage t = p.stage t := by
  rw [stage, Progress.stage, h.completed]
  cases p.node? t with
  | some node => rfl
  | none =>
    -- without a node, the set decides on one side, and the notes on the other
    by_cases he : t ∈ r.expanding
    · have hnotes := Progress.isSome_notes?_iff.mpr ((h.expanding t).mp he)
      obtain ⟨notes, hnotes⟩ := Option.isSome_iff_exists.mp hnotes
      simp [he, hnotes]
    · have hnotes : p.notes? t = none := by
        rwa [h.expanding, ← Progress.isSome_notes?_iff, Option.not_isSome_iff_eq_none] at he
      simp [he, hnotes]

/-- As many notes are left. -/
private theorem pendingCount_eq (h : r.Records p) : r.pendingCount t = p.pendingCount t := by
  rw [pendingCount, h.pending, Progress.length_waitingFor]

/-- The first pending type is told from the notes that wait alone. -/
private theorem firstPending?_eq (h : r.Records p) (hp : p.Consistent) :
    r.firstPending? = p.firstPending? := by
  refine Option.ext fun t => ?_
  rw [firstPending?_eq_some_iff, hp.firstPending?_eq_some_iff]
  simp only [h.pending]

/-- Every completed type has its node in the map, so all can be listed. -/
private theorem listed?_eq (h : r.Records p) (hp : p.Consistent) :
    r.listed? = some p.completed := by
  refine listed?_eq_some_iff.mpr ⟨h.order, fun e he => ?_⟩
  rw [h.completed, hp.node?_eq_some_iff]
  exact he

/-- Both start a type. -/
private theorem started (h : r.Records p) : (r.started t).Records (p.started t) where
  completed := h.completed
  order := h.order
  expanding u := by
    rw [Registry.started, Finset.mem_insert, Progress.expandingTypes_started, List.mem_append,
      List.mem_singleton, h.expanding, or_comm]
  pending u := by rw [Progress.waitingFor_started]; exact h.pending u

/-- Both leave a note. -/
private theorem pushNote (h : r.Records p) (hnotes : (p.notes? t).isSome) :
    (r.pushNote t note).Records (p.noted t note) where
  completed := h.completed
  order := h.order
  expanding u := by rw [Progress.expandingTypes_noted]; exact h.expanding u
  pending u := by
    rw [Progress.waitingFor_noted hnotes, Registry.pushNote, ← h.pending]
    -- the entry of the type gets the note, and no other entry changes
    by_cases htu : t = u
    · subst htu
      rw [Finmap.lookup_insert, if_pos rfl]
      rfl
    · rw [Finmap.lookup_insert_of_ne _ (Ne.symm htu), if_neg htu, List.append_nil]

/-- Both complete a type that had no node. -/
private theorem finished (h : r.Records p) (hnone : p.node? t = none) :
    (r.finished t node).Records (p.finished t node) where
  completed u := by
    rw [Progress.node?_finished, Registry.finished, ← h.completed]
    -- the type gets its node, and no other type changes
    by_cases htu : t = u
    · subst htu
      rw [h.completed, hnone, Finmap.lookup_insert, if_pos rfl]
      rfl
    · rw [Finmap.lookup_insert_of_ne _ (Ne.symm htu), if_neg htu, Option.or_none]
  order := by
    rw [Registry.finished, h.order, Progress.completedTypes, Progress.completedTypes,
      Progress.completed_finished, List.map_append]
    rfl
  expanding u := by
    rw [Registry.finished, Finset.mem_erase, Progress.expandingTypes_finished, List.mem_filter,
      h.expanding, and_comm, decide_eq_true_iff]
  pending u := by
    rw [Progress.waitingFor_finished, Registry.finished, ← h.pending]
    -- the notes of the type are gone, and no other notes are
    by_cases htu : t = u
    · subst htu
      rw [Finmap.lookup_erase, if_pos rfl]
      rfl
    · rw [Finmap.lookup_erase_ne (Ne.symm htu), if_neg htu]

end Records

/-- A call that does not fit the stage of its type is refused. -/
private theorem call_of_refused (hs : s.1.Valid) {c : Call φ γ} {m : Misuse}
    (htype : c.type? = some t) (hstage : (s.1.stage t).after c = .error m) :
    call run s c = (⟨c, .error m, []⟩, s) := by
  have hstep := call_step run s c
  have hcall := call_fst_call run s c
  generalize call run s c = out at hstep hcall
  obtain ⟨e, s'⟩ := out
  -- the other steps are those that fit the stage, so they are not refused
  cases hstep with
  | started hc he =>
    subst hcall
    obtain rfl := Option.some.inj htype
    rw [stage_eq_absent_iff.mpr ⟨hc, he⟩] at hstage
    cases hstage
  | noted he | finished he =>
    subst hcall
    obtain rfl := Option.some.inj htype
    rw [hs.stage_eq_expanding_iff.mpr he] at hstage
    cases hstage
  | edited change =>
    subst hcall
    cases htype
  | refused htype' hstage' =>
    subst hcall
    obtain rfl := Option.some.inj (htype.symm.trans htype')
    rw [Except.error.inj (hstage.symm.trans hstage')]

/-! ## Following a tracker -/

/-- A registry with its graph is in the state of a tracker. -/
structure Follows (s : Registry φ × γ) (q : Tracker φ γ) : Prop where
  records : s.1.Records q.progress
  graph : s.2 = q.graph
  valid : s.1.Valid
  consistent : q.progress.Consistent

namespace Follows

variable {q q' : Tracker φ γ}

/-- At the beginning a registry is in the state of a tracker. -/
theorem empty (g : γ) : Follows (({} : Registry φ), g) { graph := g } where
  records := .empty
  graph := rfl
  valid := .empty
  consistent := .empty

/-- A registry makes the steps of the tracker that it follows. -/
private theorem step (h : Follows s q) (hstep : Tracker.Step run q e q') :
    ∃ s', call run s e.call = (e, s') ∧ Follows s' q' := by
  obtain ⟨r, g⟩ := s
  obtain ⟨hr, rfl, hvalid, hq⟩ := h
  -- once the step of the registry is known, the containers stay in step by its own invariant
  have hfollows : ∀ {r' : Registry φ}, call run (r, q.graph) e.call = (e, r', q'.graph) →
      r'.Records q'.progress → ∃ s', call run (r, q.graph) e.call = (e, s') ∧ Follows s' q' := by
    intro r' hcall hr'
    have hv := (call_step run (r, q.graph) e.call).valid hvalid
    rw [hcall] at hv
    exact ⟨_, hcall, hr', rfl, hv, hstep.consistent hq⟩
  -- the step of the tracker decides which step the registry makes
  cases hstep with
  | started hstage =>
    obtain ⟨hc, he⟩ := stage_eq_absent_iff.mp (hr.stage_eq.trans hstage)
    exact hfollows (call_start hc he) hr.started
  | @noted t note hnotes =>
    have he := (hr.expanding t).mpr (Progress.isSome_notes?_iff.mp hnotes)
    exact hfollows (call_await he) (hr.pushNote hnotes)
  | @finished t node notes hnotes =>
    have he := (hr.expanding t).mpr (Progress.mem_expandingTypes_of_notes hnotes)
    have hnone := (Progress.stage_eq_expanding_iff.mp (hq.stage_of_notes hnotes)).1
    obtain rfl : (r.pending.lookup t).getD [] = notes :=
      (hr.pending t).trans (Progress.waitingFor_of_notes hnotes)
    exact hfollows (call_complete he) (hr.finished hnone)
  | edited change => exact hfollows rfl hr
  | refused htype hstage =>
    -- the stages are the same, so the registry refuses the call for the same reason
    rw [← hr.stage_eq] at hstage
    exact hfollows (call_of_refused hvalid htype hstage) hr

/-- A registry answers a call as the tracker that it follows does, and goes on following it. -/
private theorem call (run : φ → NodeId → γ → γ) (h : Follows s q) (c : Call φ γ) :
    (Registry.call run s c).1 = (q.call run c).1 ∧
      Follows (Registry.call run s c).2 (q.call run c).2 := by
  have hstep : Tracker.Step run q _ _ := Tracker.call_step q c
  obtain ⟨s', hcall, hs'⟩ := h.step hstep
  rw [Tracker.call_fst_call] at hcall
  rw [hcall]
  exact ⟨rfl, hs'⟩

/-- A registry answers all calls as the tracker that it follows does. -/
theorem calls (run : φ → NodeId → γ → γ) (h : Follows s q) (calls : List (Call φ γ)) :
    transcript run s calls = q.transcript run calls ∧
      Follows (after run s calls) (q.after run calls) := by
  -- on the calls, with both states moving on
  induction calls generalizing s q with
  | nil => exact ⟨rfl, h⟩
  | cons c calls ih =>
    obtain ⟨hentry, hnext⟩ := h.call run c
    obtain ⟨hentries, hlast⟩ := ih hnext
    exact ⟨congrArg₂ (· :: ·) hentry hentries, hlast⟩

/-- A completed type keeps its node. -/
private theorem lookup_after (h : Follows s q) (hnode : s.1.completed.lookup t = some node)
    (more : List (Call φ γ)) : (after run s more).1.completed.lookup t = some node := by
  rw [(h.calls run more).2.records.completed]
  exact Tracker.node?_after more ((h.records.completed t).symm.trans hnode)

/-- The answer to a call and the stage that its type comes to are those that the stage before leads
to. -/
private theorem stage_call (h : Follows s q) {c : Call φ γ} (ht : c.type? = some t) :
    (Registry.call run s c).1.answer.map (fun _ => (Registry.call run s c).2.1.stage t) =
      (s.1.stage t).after c := by
  obtain ⟨hentry, hnext⟩ := h.call run c
  have hstep : Tracker.Step run q _ _ := Tracker.call_step q c
  have hstage := hstep.stage_eq h.consistent (by rw [Tracker.call_fst_call, ht])
  rw [hentry, hnext.records.stage_eq, h.records.stage_eq, hstage, Tracker.call_fst_call]

/-- No other type comes to another stage. -/
private theorem stage_call_of_ne (h : Follows s q) {c : Call φ γ} (hc : c.type? ≠ some t) :
    (Registry.call run s c).2.1.stage t = s.1.stage t := by
  have hstep : Tracker.Step run q _ _ := Tracker.call_step q c
  have hnext := (h.call run c).2
  rw [hnext.records.stage_eq, h.records.stage_eq]
  exact hstep.stage_of_ne h.consistent (by rwa [Tracker.call_fst_call])

/-- The completed types are listed in the order in which calls completed them. -/
private theorem listed?_eq (h : Follows s q) : s.1.listed? = some q.progress.completed :=
  h.records.listed?_eq h.consistent

end Follows

/-! ## From the beginning -/

/-- After any calls, the containers fit together: no type is both completed and being expanded,
notes are kept only for types that are being expanded, and the types that have a node are listed
once each.  They are listed in the order of the calls that completed them, with nodes that are all
found.  The stage of a type says in which container it is, and a completed type keeps its node.  The
answer to one more call is decided by the stage of its type, which alone is moved, and a call that
does not fit leaves all containers and the graph as they were.  The answers are those of a tracker,
whose progress the containers record. -/
theorem containers_follow_calls (run : φ → NodeId → γ → γ) (g : γ) (calls : List (Call φ γ)) :
    let s := after run (({} : Registry φ), g) calls
    let es := transcript run (({} : Registry φ), g) calls
    s.1.Valid ∧
    (s.1.order = (Tracker.completions es).map (·.1) ∧
      s.1.listed? = some (Tracker.completions es)) ∧
    (∀ t, (s.1.stage t = .absent ↔ t ∉ s.1.completed ∧ t ∉ s.1.expanding) ∧
      (s.1.stage t = .expanding ↔ t ∈ s.1.expanding) ∧
      ∀ node, s.1.stage t = .completed node ↔ s.1.completed.lookup t = some node) ∧
    (∀ t node more, s.1.completed.lookup t = some node →
      (after run s more).1.completed.lookup t = some node) ∧
    (∀ c t, c.type? = some t →
      (call run s c).1.answer.map (fun _ => (call run s c).2.1.stage t) = (s.1.stage t).after c ∧
      ∀ u, u ≠ t → (call run s c).2.1.stage u = s.1.stage u) ∧
    (∀ c m, (call run s c).1.answer = .error m → (call run s c).2 = s) ∧
    let q := ({ graph := g } : Tracker φ γ).after run calls
    es = ({ graph := g } : Tracker φ γ).transcript run calls ∧ s.2 = q.graph ∧
      s.1.Records q.progress ∧ s.1.firstPending? = q.progress.firstPending? ∧
      ∀ t, s.1.pendingCount t = q.progress.pendingCount t := by
  intro s es
  obtain ⟨hes, h⟩ := (Follows.empty g).calls run calls
  have hlisted : s.1.listed? = some (Tracker.completions es) := by
    rw [h.listed?_eq, Tracker.completed_after, ← hes]
    rfl
  refine ⟨valid_after .empty calls, ⟨(listed?_eq_some_iff.mp hlisted).1, hlisted⟩,
    fun t => ⟨stage_eq_absent_iff, h.valid.stage_eq_expanding_iff, fun _ => stage_eq_completed_iff⟩,
    fun t node more hnode => h.lookup_after hnode more,
    fun c t ht => ⟨h.stage_call ht, fun u hu => h.stage_call_of_ne ?_⟩,
    fun c m hm => (call_step run s c).eq_of_error hm, hes, h.graph, h.records,
    h.records.firstPending?_eq h.consistent, fun _ => h.records.pendingCount_eq⟩
  -- a call is about one type
  rw [ht]
  exact fun htu => hu (Option.some.inj htu).symm

open Tracker in
/-- The completed type keeps its node, whatever is tried, and cannot be started again; the other one
can still be completed. -/
theorem containers_follow_calls_twoTypes :
    let s := after appendNote (({} : Registry Nat), []) twoTypes
    s.1.listed? = some [(⟨2⟩, ⟨5⟩)] ∧
    (after appendNote s [.complete ⟨2⟩ ⟨6⟩, .start ⟨2⟩]).1.completed.lookup ⟨2⟩ = some ⟨5⟩ ∧
    (call appendNote s (.start ⟨2⟩)).2 = s ∧
    (call appendNote s (.complete ⟨1⟩ ⟨6⟩)).1.answer.map
      (fun _ => (call appendNote s (.complete ⟨1⟩ ⟨6⟩)).2.1.stage ⟨1⟩) = .ok (.completed ⟨6⟩) := by
  obtain ⟨-, ⟨-, hlisted⟩, -, hstays, hcall, herror, -⟩ :=
    containers_follow_calls appendNote [] twoTypes
  exact ⟨hlisted, hstays ⟨2⟩ ⟨5⟩ _ (by decide), herror (.start ⟨2⟩) .alreadyCompleted (by decide),
    (hcall (.complete ⟨1⟩ ⟨6⟩) ⟨1⟩ rfl).1⟩

end Schemata.Registry
