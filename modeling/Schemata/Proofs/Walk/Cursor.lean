import Schemata.Build
import Schemata.Field

/-!
# Actions with one position

A walk hands every part of itself a position of its own.  It can also be carried out with a single
position, which is changed on the way: entering a field takes it one level down, leaving the field
takes it up again, and a field that is too deep is left as soon as it is entered.  Nothing makes
such a walk end where it began, but that each field which is entered is left, whether it comes to a
node or fails.

`Returns` says that of an action, and that it does to a build what an action without a cursor does.

## Key results

- `runOn_enter` / `runOn_within`: what entering and leaving do
- `Returns.bind` / `Returns.within`: what comes back, part by part, comes back
-/

namespace Schemata

namespace Position

/-- The position one field further up. -/
def leave (p : Position) : Position := { path := p.path.dropLast, depth := p.depth - 1 }

@[simp] theorem leave_enter (p : Position) (name : String) : (p.enter name).leave = p := by
  -- entering appends one name, which leaving drops again
  simp [leave, enter]

end Position

/-- A build, and the position at which something is done to it. -/
structure Cursor where
  position : Position
  build : Build

/-- An action on a build that may move about, and may fail. -/
abbrev CursorM := ExceptT CompileError (StateM Cursor)

namespace CursorM

variable {α β : Type}

/-- Runs an action from a cursor. -/
def runOn (x : CursorM α) (c : Cursor) : Except CompileError α × Cursor :=
  StateT.run (ExceptT.run x) c

/-- An action on the build, wherever the cursor stands. -/
def onBuild (x : BuildM α) : CursorM α := ExceptT.mk fun c =>
  let r := x.runOn c.build
  (r.1, { c with build := r.2 })

/-- Where the cursor stands. -/
def position : CursorM Position := do
  return (← get).position

/-- Moves the cursor. -/
def move (f : Position → Position) : CursorM Unit :=
  modify fun c => { c with position := f c.position }

/-- Goes down to a field.  If that is too deep, it is left again at once. -/
def enter (limit : Nat) (name : String) : CursorM Unit := do
  move (·.enter name)
  let p ← position
  if limit < p.depth then
    move .leave
    throw (.tooDeep p.path limit)

/-- Does something, and hands back how it ended. -/
def attempt (x : CursorM α) : CursorM (Except CompileError α) := ExceptT.lift x.run

/-- Does something inside a field, and leaves the field whether that fails or not. -/
def within (limit : Nat) (name : String) (x : CursorM α) : CursorM α := do
  enter limit name
  let outcome ← attempt x
  move .leave
  MonadExcept.ofExcept outcome

private theorem runOn_bind (x : CursorM α) (f : α → CursorM β) (c : Cursor) :
    (x >>= f).runOn c =
      match x.runOn c with
      | (.ok a, c') => (f a).runOn c'
      | (.error e, c') => (.error e, c') := by
  show ExceptT.bindCont f (x c).1 (x c).2 = _
  have h : x.runOn c = x c := rfl
  rw [h]
  obtain ⟨r, c'⟩ := x c
  cases r <;> rfl

/-- Entering a field that is not too deep goes one level down. -/
theorem runOn_enter {limit : Nat} {p : Position} (h : p.depth < limit) (name : String) (b : Build) :
    (enter limit name).runOn ⟨p, b⟩ = (.ok (), ⟨p.enter name, b⟩) := by
  have hdepth : ¬ limit < (p.enter name).depth := by
    rw [Position.depth_enter]
    omega
  show (if limit < (p.enter name).depth then _ else _ : CursorM Unit).runOn ⟨p.enter name, b⟩ = _
  rw [if_neg hdepth]
  rfl

/-- Entering a field that is too deep fails, and the cursor stays where it is. -/
private theorem runOn_enter_of_le {limit : Nat} {p : Position} (h : limit ≤ p.depth) (name : String)
    (b : Build) :
    (enter limit name).runOn ⟨p, b⟩ = (.error (.tooDeep (p.enter name).path limit), ⟨p, b⟩) := by
  have hdepth : limit < (p.enter name).depth := by
    rw [Position.depth_enter]
    omega
  show (if limit < (p.enter name).depth then _ else _ : CursorM Unit).runOn ⟨p.enter name, b⟩ = _
  rw [if_pos hdepth]
  -- what was entered is left before the error is raised
  show (_, (⟨(p.enter name).leave, b⟩ : Cursor)) = _
  rw [Position.leave_enter]

@[simp] theorem runOn_attempt (x : CursorM α) (c : Cursor) :
    (attempt x).runOn c = (.ok (x.runOn c).1, (x.runOn c).2) := rfl

@[simp] theorem runOn_move (f : Position → Position) (c : Cursor) :
    (move f).runOn c = (.ok (), { c with position := f c.position }) := rfl

@[simp] theorem runOn_ofExcept (r : Except CompileError α) (c : Cursor) :
    (MonadExcept.ofExcept r : CursorM α).runOn c = (r, c) := by
  cases r <;> rfl

/-- What is done inside a field ends one level up from where it ends there. -/
theorem runOn_within {limit : Nat} {p : Position} (h : p.depth < limit) (name : String)
    (x : CursorM α) (b : Build) :
    (within limit name x).runOn ⟨p, b⟩ =
      let r := x.runOn ⟨p.enter name, b⟩
      (r.1, { r.2 with position := r.2.position.leave }) := by
  rw [within, runOn_bind, runOn_enter h]
  -- the outcome is handed back after the cursor has left, whatever it is
  simp only [runOn_bind, runOn_attempt, runOn_move, runOn_ofExcept]

end CursorM

/-! ## Actions that come back -/

/-- An action that begins at a position ends there, whether it fails or not, and does to a build
what another action does that does not move about. -/
def Returns {α : Type} (p : Position) (x : CursorM α) (y : BuildM α) : Prop :=
  ∀ b, x.runOn ⟨p, b⟩ = ((y.runOn b).1, ⟨p, (y.runOn b).2⟩)

namespace Returns

variable {α β : Type} {p : Position} {limit : Nat} {name : String}

theorem pure (p : Position) (a : α) : Returns p (pure a) (pure a) := fun _ => rfl

/-- An action on the build does not move the cursor. -/
theorem onBuild (p : Position) (y : BuildM α) : Returns p (CursorM.onBuild y) y := fun _ => rfl

/-- What comes back, one after the other, comes back. -/
theorem bind {x : CursorM α} {y : BuildM α} {f : α → CursorM β} {g : α → BuildM β}
    (hx : Returns p x y) (hf : ∀ a, Returns p (f a) (g a)) : Returns p (x >>= f) (y >>= g) := by
  intro b
  rw [CursorM.runOn_bind, BuildM.runOn_bind, hx b]
  -- both actions fail or both go on, by `hx`
  rcases y.runOn b with ⟨e | a, b'⟩
  · rfl
  · exact hf a b'

/-- An action may look at where the cursor stands. -/
theorem position {f : Position → CursorM α} {y : BuildM α} (h : Returns p (f p) y) :
    Returns p (CursorM.position >>= f) y := by
  intro b
  rw [CursorM.runOn_bind]
  exact h b

/-- What is done for one field after the other comes back if it does so for each. -/
theorem forM {x : Field → CursorM Unit} {y : Field → BuildM Unit} (h : ∀ f, Returns p (x f) (y f))
    (fs : List Field) : Returns p (fs.forM x) (fs.forM y) := by
  induction fs with
  | nil => exact pure p ()
  | cons f fs ih =>
    -- on the fields, which all begin at the same position
    simp only [List.forM_eq_forM, List.forM_cons] at ih ⊢
    exact (h f).bind fun _ => ih

/-- What comes back to a field comes back from it. -/
theorem within {x : CursorM α} {y : BuildM α} (hlt : p.depth < limit)
    (h : Returns (p.enter name) x y) : Returns p (CursorM.within limit name x) y := by
  intro b
  rw [CursorM.runOn_within hlt, h b]
  -- the cursor is back at the field when it leaves
  simp only [Position.leave_enter]

/-- Where no level is left, nothing is done in the field. -/
theorem within_of_le (x : CursorM α) (hle : limit ≤ p.depth) :
    Returns p (CursorM.within limit name x) (throw (.tooDeep (p.enter name).path limit)) := by
  intro b
  rw [CursorM.within, CursorM.runOn_bind, CursorM.runOn_enter_of_le hle]
  rfl

end Returns

end Schemata
