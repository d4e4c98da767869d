import Mathlib.Data.List.Induction
import Schemata.Proofs.Walk.Effect

/-!
# Calls on a progress

Types are started, awaited and completed by calls, in any order and also by calls that do not fit.
A tracker is a progress together with the graph that the notes change when they are run.  It answers
calls, and a transcript lists the calls with their answers and with the notes that were run.  What a
note is and what it does to the graph is left open; a build is a tracker whose notes are fix-ups.

## Key results

- `Tracker.call_step`: all that a call can do
- `Tracker.run_induction`: what every call keeps holds after any calls
- `BuildM.runOn_perform`: the calls on a build are those on its tracker
-/

namespace Schemata

/-- A call on a tracker. -/
inductive Call (φ γ : Type) where
  | start (t : TypeId)
  | await (t : TypeId) (note : φ)
  | complete (t : TypeId) (node : NodeId)
  /-- The graph is changed between the calls that are about types. -/
  | edit (change : γ → γ)

/-- A note that was run. -/
structure Firing (φ γ : Type) where
  type : TypeId
  note : φ
  /-- The node that the note was given. -/
  node : NodeId
  /-- The graph that the note was run on. -/
  graph : γ
  deriving Repr, DecidableEq

/-- A call, its answer, and the notes that it ran.  The answer to a call that fits is the number of
these notes. -/
structure Entry (φ γ : Type) where
  call : Call φ γ
  answer : Except Misuse Nat
  fired : List (Firing φ γ)

/-- A progress, and the graph that its notes change. -/
structure Tracker (φ γ : Type) where
  progress : Progress φ := {}
  graph : γ
  deriving Repr, DecidableEq

variable {φ γ : Type}

/-- The type that a call is about. -/
def Call.type? : Call φ γ → Option TypeId
  | .start t | .await t _ | .complete t _ => some t
  | .edit _ => none

/-- The stage to which a call brings its type, or the reason why it does not fit. -/
def Stage.after : Stage → Call φ γ → Except Misuse Stage
  | .absent, .start _ => .ok .expanding
  | .expanding, .start _ => .error .alreadyExpanding
  | .completed _, .start _ => .error .alreadyCompleted
  | .expanding, .await _ _ => .ok .expanding
  | .absent, .await _ _ | .completed _, .await _ _ => .error .notExpanding
  | .expanding, .complete _ node => .ok (.completed node)
  | .absent, .complete _ _ => .error .notExpanding
  | .completed _, .complete _ _ => .error .alreadyCompleted
  | stage, .edit _ => .ok stage

namespace Entry

/-- The note that a call left, with its type. -/
def accepted? (e : Entry φ γ) : Option (TypeId × φ) :=
  match e.call, e.answer with
  | .await t note, .ok _ => some (t, note)
  | _, _ => none

/-- The type that a call completed, with its node. -/
def completed? (e : Entry φ γ) : Option (TypeId × NodeId) :=
  match e.call, e.answer with
  | .complete t node, .ok _ => some (t, node)
  | _, _ => none

end Entry

namespace Tracker

variable (run : φ → NodeId → γ → γ)

/-- Runs notes one after the other, each on the graph that the one before left. -/
def fire (t : TypeId) (node : NodeId) : List φ → γ → List (Firing φ γ) × γ
  | [], g => ([], g)
  | note :: rest, g =>
    let r := fire t node rest (run note node g)
    ({ type := t, note, node, graph := g } :: r.1, r.2)

/-- Answers a call.  A call that does not fit changes nothing. -/
def call (s : Tracker φ γ) (c : Call φ γ) : Entry φ γ × Tracker φ γ :=
  match c with
  | .start t =>
    match s.progress.start t with
    | .ok progress => (⟨c, .ok 0, []⟩, { s with progress })
    | .error e => (⟨c, .error e, []⟩, s)
  | .await t note =>
    match s.progress.await t note with
    | .ok progress => (⟨c, .ok 0, []⟩, { s with progress })
    | .error e => (⟨c, .error e, []⟩, s)
  | .complete t node =>
    match s.progress.complete t node with
    | .ok (notes, progress) =>
      let r := fire run t node notes s.graph
      (⟨c, .ok notes.length, r.1⟩, { progress, graph := r.2 })
    | .error e => (⟨c, .error e, []⟩, s)
  | .edit change => (⟨c, .ok 0, []⟩, { s with graph := change s.graph })

/-- The tracker after some calls. -/
def after (s : Tracker φ γ) (calls : List (Call φ γ)) : Tracker φ γ :=
  calls.foldl (fun s c => (s.call run c).2) s

/-- The transcript of some calls. -/
def transcript (s : Tracker φ γ) : List (Call φ γ) → List (Entry φ γ)
  | [] => []
  | c :: calls => (s.call run c).1 :: transcript (s.call run c).2 calls

/-! ## Running notes -/

/-- Notes are run on graphs that are handed on from one to the next. -/
def HandedOn (g : γ) : List (Firing φ γ) → γ → Prop
  | [], g' => g = g'
  | f :: rest, g' => f.graph = g ∧ HandedOn (run f.note f.node g) rest g'

variable {run} {s s' : Tracker φ γ} {t : TypeId} {node : NodeId} {notes : List φ} {g : γ}

/-- Notes are run with the node of their type, in the order in which they were left. -/
theorem map_fire {β : Type} (k : φ → NodeId → β) :
    -- on the notes that are left to run
    (fire run t node notes g).1.map (fun f => k f.note f.node) = notes.map (k · node) := by
  induction notes generalizing g with
  | nil => rfl
  | cons note rest ih => exact congrArg (k note node :: ·) ih

/-- All notes are run. -/
theorem map_note_fire : (fire run t node notes g).1.map (·.note) = notes :=
  (map_fire fun note _ => note).trans (List.map_id' notes)

/-- As many notes are run as were left. -/
theorem length_fire : (fire run t node notes g).1.length = notes.length := by
  rw [← List.length_map (·.note), map_note_fire]

/-- They are run for the type, with its node. -/
theorem forall_mem_fire : ∀ f ∈ (fire run t node notes g).1, f.type = t ∧ f.node = node := by
  induction notes generalizing g with
  | nil => simp [fire]
  | cons note rest ih => simpa [fire] using ih

/-- Each note is run on the graph that the one before left. -/
theorem handedOn_fire :
    HandedOn run g (fire run t node notes g).1 (fire run t node notes g).2 := by
  induction notes generalizing g with
  | nil => rfl
  | cons note rest ih => exact ⟨rfl, ih⟩

/-- The last graph is that of running the notes one after the other. -/
theorem graph_fire :
    (fire run t node notes g).2 = notes.foldl (fun g note => run note node g) g := by
  induction notes generalizing g with
  | nil => rfl
  | cons note rest ih => exact ih

/-! ## Steps -/

/-- What a call can do to a tracker. -/
inductive Step (run : φ → NodeId → γ → γ) (s : Tracker φ γ) :
    Entry φ γ → Tracker φ γ → Prop where
  /-- An absent type is started. -/
  | started {t : TypeId} (hstage : s.progress.stage t = .absent) :
      Step run s ⟨.start t, .ok 0, []⟩ { s with progress := s.progress.started t }
  /-- A note is left for a type that is being expanded. -/
  | noted {t : TypeId} {note : φ} (hnotes : (s.progress.notes? t).isSome) :
      Step run s ⟨.await t note, .ok 0, []⟩ { s with progress := s.progress.noted t note }
  /-- A type is completed, and its notes are run. -/
  | finished {t : TypeId} {node : NodeId} {notes : List φ}
      (hnotes : s.progress.notes? t = some notes) :
      Step run s ⟨.complete t node, .ok notes.length, (fire run t node notes s.graph).1⟩
        { progress := s.progress.finished t node, graph := (fire run t node notes s.graph).2 }
  /-- The graph is changed, but nothing else. -/
  | edited (change : γ → γ) :
      Step run s ⟨.edit change, .ok 0, []⟩ { s with graph := change s.graph }
  /-- A call does not fit the stage of its type, and changes nothing. -/
  | refused {c : Call φ γ} {t : TypeId} {e : Misuse} (htype : c.type? = some t)
      (hstage : (s.progress.stage t).after c = .error e) :
      Step run s ⟨c, .error e, []⟩ s

/-- The transcript tells the call that was made. -/
@[simp] theorem call_fst_call (s : Tracker φ γ) (c : Call φ γ) : (s.call run c).1.call = c := by
  cases c with
  | start t | await t note | complete t node =>
    simp only [call]
    split <;> rfl
  | edit change => rfl

/-- Starting an absent type works, and runs nothing. -/
theorem call_start (h : s.progress.stage t = .absent) :
    s.call run (.start t) =
      (⟨.start t, .ok 0, []⟩, { s with progress := s.progress.started t }) := by
  simp only [call, Progress.start_of_absent h]

/-- Leaving a note for a type that is being expanded works, and runs nothing. -/
theorem call_await {note : φ} (h : (s.progress.notes? t).isSome) :
    s.call run (.await t note) =
      (⟨.await t note, .ok 0, []⟩, { s with progress := s.progress.noted t note }) := by
  simp only [call, Progress.await_of_isSome h]

/-- Completing a type that is being expanded works, and runs its notes. -/
theorem call_complete (node : NodeId) (h : s.progress.notes? t = some notes) :
    s.call run (.complete t node) =
      (⟨.complete t node, .ok notes.length, (fire run t node notes s.graph).1⟩,
        { progress := s.progress.finished t node,
          graph := (fire run t node notes s.graph).2 }) := by
  simp only [call, Progress.complete_of_notes h]

/-- Every call is a step. -/
theorem call_step (s : Tracker φ γ) (c : Call φ γ) :
    Step run s (s.call run c).1 (s.call run c).2 := by
  cases c with
  | start t =>
    cases hstage : s.progress.stage t with
    | absent =>
      rw [call_start hstage]
      exact .started hstage
    -- in the two other stages a type cannot be started
    | expanding | completed id =>
      simp only [call, Progress.start, hstage]
      exact .refused rfl (by rw [hstage]; rfl)
  | await t note =>
    cases hnotes : (s.progress.notes? t).isSome with
    | true =>
      rw [call_await hnotes]
      exact .noted hnotes
    | false =>
      simp only [call, Progress.await, hnotes, Bool.false_eq_true, if_false]
      refine .refused rfl ?_
      -- the test is for notes, and a type that is being expanded has some, if only an empty list
      cases hstage : s.progress.stage t with
      | absent | completed id => rfl
      | expanding => simp [(Progress.stage_eq_expanding_iff.mp hstage).2] at hnotes
  | complete t node =>
    cases hnotes : s.progress.notes? t with
    | some notes =>
      rw [call_complete node hnotes]
      exact .finished hnotes
    | none =>
      simp only [call, Progress.complete, hnotes]
      refine .refused rfl ?_
      -- without notes, the type is completed if it has a node, and else it is absent
      cases hnode : s.progress.node? t with
      | some id => rw [Progress.stage_eq_completed_iff.mpr hnode]; rfl
      | none => rw [Progress.stage_eq_absent_iff.mpr ⟨hnode, hnotes⟩]; rfl
  | edit change => exact .edited change

/-! ## Runs -/

/-- The last calls are made on what the first ones leave. -/
theorem after_append (s : Tracker φ γ) (calls more : List (Call φ γ)) :
    s.after run (calls ++ more) = (s.after run calls).after run more :=
  List.foldl_append

/-- The transcript of the last calls follows that of the first ones. -/
theorem transcript_append (s : Tracker φ γ) (calls more : List (Call φ γ)) :
    s.transcript run (calls ++ more) =
      s.transcript run calls ++ (s.after run calls).transcript run more := by
  -- on the calls that come first
  induction calls generalizing s with
  | nil => rfl
  | cons c calls ih => exact congrArg (_ :: ·) (ih _)

/-- What holds at the beginning and is kept by every step holds after any calls. -/
theorem run_induction {motive : List (Entry φ γ) → Tracker φ γ → Prop} (hstart : motive [] s)
    (hstep : ∀ {es s₁ e s₂}, motive es s₁ → Step run s₁ e s₂ → motive (es ++ [e]) s₂)
    (calls : List (Call φ γ)) : motive (s.transcript run calls) (s.after run calls) := by
  -- on the calls, with the last one taken off
  induction calls using List.reverseRecOn with
  | nil => exact hstart
  | append_singleton calls c ih =>
    rw [transcript_append, after_append]
    exact hstep ih (call_step _ c)

/-- A step lists no type twice. -/
theorem Step.consistent {e : Entry φ γ} (h : Step run s e s') (hs : s.progress.Consistent) :
    s'.progress.Consistent := by
  -- the stage of its type allows the step, or nothing is listed
  cases h with
  | started hstage => exact hs.started hstage
  | noted => exact hs.noted
  | finished hnotes => exact hs.finished (Progress.mem_expandingTypes_of_notes hnotes)
  | edited | refused => exact hs

end Tracker

/-! ## Builds as trackers -/

/-- The tracker of a build: its progress, and its arena as the graph. -/
def Build.tracker (b : Build) : Tracker Fixup Arena := { progress := b.progress, graph := b.arena }

/-- A fix-up that was run, as the log of a build tells it. -/
def Firing.event (f : Firing Fixup Arena) : Event := .patched f.note f.node

namespace BuildM

/-- Makes a call on a build. -/
def perform (c : Catalog) : Call Fixup Arena → BuildM Nat
  | .start t => do
    start c t
    return 0
  | .await t fixup => do
    await c t fixup
    return 0
  | .complete t node => complete c t node
  | .edit change => do
    modify fun b => { b with arena := change b.arena }
    return 0

/-- A call on a build is answered as by its tracker, and leaves the build with the tracker that is
left.  The fix-ups that were run are added to its log. -/
theorem runOn_perform (c : Catalog) (call : Call Fixup Arena) (b : Build) :
    let r := b.tracker.call Fixup.run call
    (perform c call).runOn b =
      (r.1.answer.mapError (.misuse (call.type?.elim "" c.name)),
        { b with
          arena := r.2.graph
          progress := r.2.progress
          log := b.log ++ r.1.fired.map (·.event) }) := by
  -- on both sides the progress answers, and a misuse names the type
  cases call with
  | start t =>
    simp only [perform, start, runOn_bind, runOn_get, Tracker.call, Build.tracker]
    cases b.progress.start t <;> rfl
  | await t f =>
    simp only [perform, await, runOn_bind, runOn_get, Tracker.call, Build.tracker]
    cases b.progress.await t f <;> rfl
  | complete t node =>
    simp only [perform, complete, runOn_bind, runOn_get, Tracker.call, Build.tracker]
    cases b.progress.complete t node with
    | error e => rfl
    | ok r =>
      -- a build runs its fix-ups in one fold, and a tracker keeps what each was run on
      simp only [Tracker.graph_fire, Firing.event, Tracker.map_fire Event.patched]
      rfl
  | edit change => rfl

end BuildM

end Schemata
