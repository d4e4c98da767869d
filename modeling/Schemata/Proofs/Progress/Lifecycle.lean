import Schemata.Proofs.Progress.Calls

/-!
# Stages of types

Every type goes from absent to being expanded to completed, whatever calls are made and in whatever
order: `Stage.after` says which calls fit a stage and what they make of it.  The lists of a progress
keep in step with the stages.

## Key results

- `Step.stage_eq` / `Step.stage_of_ne`: a call moves the stage of its own type, and of no other
- `completed_after`: types are listed in the order in which they were completed
- `node?_after`: a completed type keeps its node
-/

namespace Schemata.Tracker

variable {φ γ : Type} {run : φ → NodeId → γ → γ} {s s' : Tracker φ γ} {e : Entry φ γ}
  {t u : TypeId} {node : NodeId}

/-! ## Steps -/

/-- The answer and the stage that its type comes to are those that the stage before leads to. -/
theorem Step.stage_eq (h : Step run s e s') (hs : s.progress.Consistent)
    (ht : e.call.type? = some t) :
    e.answer.map (fun _ => s'.progress.stage t) = (s.progress.stage t).after e.call := by
  -- one case for each kind of step; the stage before is known in all of them
  cases h with
  | started hstage =>
    obtain rfl := Option.some.inj ht
    rw [Progress.stage_started hstage, if_pos rfl, hstage]
    rfl
  | noted hnotes =>
    obtain rfl := Option.some.inj ht
    have hstage := hs.stage_eq_expanding_iff.mpr (Progress.isSome_notes?_iff.mp hnotes)
    rw [Progress.stage_noted, hstage]
    rfl
  | finished hnotes =>
    obtain rfl := Option.some.inj ht
    rw [Progress.stage_finished (hs.stage_of_notes hnotes), if_pos rfl, hs.stage_of_notes hnotes]
    rfl
  | edited change => exact nomatch ht
  -- the stage does not change, and is the reason for the refusal
  | refused htype hstage =>
    obtain rfl := Option.some.inj (htype.symm.trans ht)
    exact hstage.symm

/-- No other type comes to another stage. -/
theorem Step.stage_of_ne (h : Step run s e s') (hs : s.progress.Consistent)
    (hu : e.call.type? ≠ some u) : s'.progress.stage u = s.progress.stage u := by
  cases h with
  | started hstage => rw [Progress.stage_started hstage, if_neg fun h => hu (congrArg some h)]
  | noted => exact Progress.stage_noted
  | finished hnotes =>
    rw [Progress.stage_finished (hs.stage_of_notes hnotes), if_neg fun h => hu (congrArg some h)]
  | edited | refused => rfl

/-- A completed type is added behind those that were completed before. -/
theorem Step.completed_eq (h : Step run s e s') :
    s'.progress.completed = s.progress.completed ++ e.completed?.toList := by
  -- of all steps, only a completion adds a type
  cases h with
  | finished => rfl
  | started | noted | edited => simp [Entry.completed?, Progress.started, Progress.noted]
  | @refused c _ _ _ _ => cases c <;> simp [Entry.completed?]

/-! ## Runs -/

/-- The types that the calls of a transcript completed, with their nodes. -/
def completions (es : List (Entry φ γ)) : List (TypeId × NodeId) := es.filterMap (·.completed?)

/-- Types are listed in the order in which they were completed. -/
theorem completed_after (s : Tracker φ γ) (calls : List (Call φ γ)) :
    (s.after run calls).progress.completed =
      s.progress.completed ++ completions (s.transcript run calls) := by
  refine run_induction (motive := fun es s' =>
    s'.progress.completed = s.progress.completed ++ completions es) ?_ ?_ calls
  · simp [completions]
  -- the calls before have listed what they completed, and this one adds its own
  · intro es s₁ e s₂ hes hstep
    rw [hstep.completed_eq, hes, completions, completions, List.filterMap_append, List.append_assoc]
    cases he : e.completed? <;> simp [he]

/-- A completed type stays completed, with the same node. -/
theorem node?_after (calls : List (Call φ γ)) (h : s.progress.node? t = some node) :
    (s.after run calls).progress.node? t = some node := by
  refine valueOf?_of_prefix ?_ h
  rw [completed_after]
  exact List.prefix_append _ _

/-! ## Two types -/

/-- A note that writes itself and its node behind what is there. -/
def appendNote (note : Nat) (node : NodeId) (g : List (Nat × Nat)) : List (Nat × Nat) :=
  g ++ [(note, node.index)]

/-- Two types are started, three notes are left for them in turn, and one type is completed. -/
def twoTypes : List (Call Nat (List (Nat × Nat))) :=
  [.start ⟨1⟩, .start ⟨2⟩, .await ⟨2⟩ 20, .await ⟨1⟩ 21, .await ⟨2⟩ 22, .complete ⟨2⟩ ⟨5⟩]

end Schemata.Tracker
