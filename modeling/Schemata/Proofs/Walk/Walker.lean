import Schemata.Proofs.Walk.Cursor
import Schemata.Strategy.Standard
import Schemata.Walk

/-!
# Walks with one position

A `Walker` carries a strategy out with a cursor.  The walkers of the standard strategies come back
to where they began if the visits of fields do, and by the number of levels so do these.  What a
walk with a cursor does to a build, and how it ends, is what a walk does that hands positions down.

## Key results

- `Walker.follows_of_mem_standard`: the standard strategies come back if the visits of fields do
- `Walker.returns_visit` / `Walker.returns_dispatch`: walks come back
-/

namespace Schemata

/-- What a strategy sees of a walk where it visits no field. -/
def Setting.still (S : Setting) (p : Position) : Scope :=
  { S with
    position := p
    visit := fun f => throw (.tooDeep (p.enter f.name).path S.options.maxDepth) }

/-- A strategy as it is carried out with a cursor, given a way to visit fields from there. -/
structure Walker where
  /-- The strategy that is carried out. -/
  strategy : Strategy
  convert : Setting → (Field → CursorM NodeId) → TypeId → CursorM NodeId
  convertField : Setting → (Field → CursorM NodeId) → Field → CursorM NodeId :=
    fun S visit f => convert S visit f.type

namespace Walker

/-- What is done in a scope without visiting a field is done wherever the cursor stands. -/
def still {α : Type} (S : Setting) (x : Scope → BuildM α) : CursorM α := do
  let p ← CursorM.position
  CursorM.onBuild (x (S.still p))

def scalar : Walker where
  strategy := .scalar
  convert S _ t := still S fun scope => Strategy.scalar.convert scope t

def enumeration : Walker where
  strategy := .enumeration
  convert S _ t := still S fun scope => Strategy.enumeration.convert scope t

def array : Walker where
  strategy := .array
  convert S visit t := do
    match S.catalog.shape? t with
    | some (.array element) =>
      let items ← visit (.elements t element)
      CursorM.onBuild (BuildM.insert (.array (some items)))
    | _ => still S fun scope => throw (scope.noStrategy t)

def collection : Walker where
  strategy := .collection
  convert S visit t := do
    match S.catalog.shape? t with
    | some (.collection (some element)) =>
      let items ← visit (.elements t element)
      CursorM.onBuild (BuildM.insert (.array (some items)))
    | some (.collection none) => CursorM.onBuild (BuildM.insert (.array none))
    | _ => still S fun scope => throw (scope.noStrategy t)

/-- Expands a record: the cursor goes to its fields, one after the other. -/
def expand (S : Setting) (visit : Field → CursorM NodeId) (t : TypeId) : CursorM NodeId := do
  CursorM.onBuild (BuildM.start S.catalog t)
  let name ← CursorM.onBuild (BuildM.componentName S.catalog t)
  let id ← CursorM.onBuild (BuildM.insert (.object name))
  let fields ← still S fun scope => scope.listFields t
  fields.forM fun field => do
    let child ← visit field
    CursorM.onBuild (BuildM.addProperty id field.name child)
  let _ ← CursorM.onBuild (BuildM.complete S.catalog t id)
  return id

def convertRecord (S : Setting) (visit : Field → CursorM NodeId) (t : TypeId) :
    CursorM NodeId := do
  match ← CursorM.onBuild (BuildM.stage t) with
  | .completed id => return id
  | .expanding => still S fun scope => Strategy.placeholderFor scope t
  | .absent => expand S visit t

def record : Walker where
  strategy := .record
  convert := convertRecord
  convertField S visit f := do
    let id ← convertRecord S visit f.type
    still S fun scope => Strategy.referTo scope id

/-- The standard strategies, in their order. -/
def standard : List Walker := [scalar, array, collection, enumeration, record]

theorem map_strategy_standard : standard.map (·.strategy) = Strategy.standard := rfl

/-- There is a standard walker for each of some standard strategies. -/
theorem exists_map_strategy {strategies : List Strategy}
    (h : ∀ s ∈ strategies, s ∈ Strategy.standard) :
    ∃ walkers : List Walker, walkers.map (·.strategy) = strategies ∧
      ∀ w ∈ walkers, w ∈ standard := by
  induction strategies with
  | nil => exact ⟨[], rfl, fun _ hw => nomatch hw⟩
  | cons s strategies ih =>
    rw [List.forall_mem_cons] at h
    obtain ⟨w, hw, rfl⟩ := List.mem_map.mp (map_strategy_standard ▸ h.1)
    obtain ⟨walkers, rfl, hwalkers⟩ := ih h.2
    exact ⟨w :: walkers, rfl, List.forall_mem_cons.mpr ⟨hw, hwalkers⟩⟩

/-- A walker comes back if the visits of fields do, and does what its strategy does. -/
structure Follows (w : Walker) : Prop where
  convert {S : Setting} {p : Position} {visit : Field → CursorM NodeId}
    {plain : Field → BuildM NodeId} (h : ∀ f, Returns p (visit f) (plain f)) (t : TypeId) :
    Returns p (w.convert S visit t)
      (w.strategy.convert { S with position := p, visit := plain } t)
  convertField {S : Setting} {p : Position} {visit : Field → CursorM NodeId}
    {plain : Field → BuildM NodeId} (h : ∀ f, Returns p (visit f) (plain f)) (f : Field) :
    Returns p (w.convertField S visit f)
      (w.strategy.convertField { S with position := p, visit := plain } f)

variable {S : Setting} {p : Position} {t : TypeId}

private theorem returns_still {α : Type} {x : Scope → BuildM α} {y : BuildM α}
    (h : x (S.still p) = y) : Returns p (still S x) y := by
  subst h
  -- the position is read, and what is done there does not move
  exact .position (.onBuild p _)

section Convert

variable {visit : Field → CursorM NodeId} {plain : Field → BuildM NodeId}

private theorem returns_scalar (t : TypeId) :
    Returns p (scalar.convert S visit t)
      (Strategy.scalar.convert { S with position := p, visit := plain } t) := by
  show Returns p (still S fun scope => Strategy.scalar.convert scope t) _
  apply returns_still
  simp only [Strategy.scalar]
  rfl

private theorem returns_enumeration (t : TypeId) :
    Returns p (enumeration.convert S visit t)
      (Strategy.enumeration.convert { S with position := p, visit := plain } t) := by
  show Returns p (still S fun scope => Strategy.enumeration.convert scope t) _
  apply returns_still
  simp only [Strategy.enumeration]
  rfl

private theorem returns_array (h : ∀ f, Returns p (visit f) (plain f)) (t : TypeId) :
    Returns p (array.convert S visit t)
      (Strategy.array.convert { S with position := p, visit := plain } t) := by
  -- the strategy and the walker ask for the shape in the same way
  simp only [array, Strategy.array]
  cases S.catalog.shape? t with
  | none => exact returns_still rfl
  | some shape =>
    cases shape with
    | array element => exact (h _).bind fun items => .onBuild p _
    | scalar | collection | enumeration | record => exact returns_still rfl

private theorem returns_collection (h : ∀ f, Returns p (visit f) (plain f)) (t : TypeId) :
    Returns p (collection.convert S visit t)
      (Strategy.collection.convert { S with position := p, visit := plain } t) := by
  simp only [collection, Strategy.collection]
  cases S.catalog.shape? t with
  | none => exact returns_still rfl
  | some shape =>
    cases shape with
    | collection element =>
      cases element with
      | none => exact .onBuild p _
      | some element => exact (h _).bind fun items => .onBuild p _
    | scalar | array | enumeration | record => exact returns_still rfl

private theorem returns_expand (h : ∀ f, Returns p (visit f) (plain f)) (t : TypeId) :
    Returns p (expand S visit t) (Strategy.expand { S with position := p, visit := plain } t) := by
  unfold expand Strategy.expand
  refine (Returns.onBuild p _).bind fun _ => (Returns.onBuild p _).bind fun name => ?_
  refine (Returns.onBuild p _).bind fun id => (returns_still rfl).bind fun fields => ?_
  -- the fields are visited in order, and each visit comes back
  refine (Returns.forM (fun f => ?_) fields).bind fun _ => ?_
  · exact (h f).bind fun child => .onBuild p _
  · exact (Returns.onBuild p _).bind fun _ => .pure p id

private theorem returns_convertRecord (h : ∀ f, Returns p (visit f) (plain f)) (t : TypeId) :
    Returns p (convertRecord S visit t)
      (Strategy.convertRecord { S with position := p, visit := plain } t) := by
  unfold convertRecord Strategy.convertRecord
  refine (Returns.onBuild p _).bind fun stage => ?_
  cases stage with
  | completed id => exact .pure p id
  | expanding => exact returns_still rfl
  | absent => exact returns_expand h t

private theorem follows_record : record.Follows where
  convert h t := returns_convertRecord h t
  convertField h f := (returns_convertRecord h f.type).bind fun _ => returns_still rfl

/-- A walker that converts a field as its type need only come back from types. -/
private theorem follows_of_convert {w : Walker}
    (hwalker : ∀ S visit f, w.convertField S visit f = w.convert S visit f.type)
    (hstrategy : ∀ scope f, w.strategy.convertField scope f = w.strategy.convert scope f.type)
    (h : ∀ {S : Setting} {p : Position} {visit : Field → CursorM NodeId}
      {plain : Field → BuildM NodeId}, (∀ f, Returns p (visit f) (plain f)) → ∀ t,
      Returns p (w.convert S visit t)
        (w.strategy.convert { S with position := p, visit := plain } t)) : w.Follows where
  convert := h
  convertField hvisit f := by
    rw [hwalker, hstrategy]
    exact h hvisit f.type

/-- The standard strategies come back if the visits of fields do. -/
theorem follows_of_mem_standard {w : Walker} (h : w ∈ standard) : w.Follows := by
  have hcases : w = scalar ∨ w = array ∨ w = collection ∨ w = enumeration ∨ w = record := by
    simpa [standard] using h
  rcases hcases with rfl | rfl | rfl | rfl | rfl
  · exact follows_of_convert (fun _ _ _ => rfl) (fun _ _ => rfl) fun _ => returns_scalar
  · exact follows_of_convert (fun _ _ _ => rfl) (fun _ _ => rfl) returns_array
  · exact follows_of_convert (fun _ _ _ => rfl) (fun _ _ => rfl) returns_collection
  · exact follows_of_convert (fun _ _ _ => rfl) (fun _ _ => rfl) fun _ => returns_enumeration
  · exact follows_record

end Convert

/-! ## Walks -/

/-- The walker for the type that the cursor has come to. -/
def choose (walkers : List Walker) (S : Setting) (t : TypeId) : CursorM Walker := do
  still S fun scope => BuildM.record (.visited scope.position t)
  match walkers.find? (·.strategy.claims S.catalog t) with
  | some w => return w
  | none => still S fun scope => throw (scope.noStrategy t)

/-- Converts a field of the type at the cursor, one level further down.  The limit is kept by
`CursorM.within`; `levels` only bounds the recursion, and is not used up before the limit is reached
if it is as large as that. -/
def visit (walkers : List Walker) (S : Setting) : (levels : Nat) → Field → CursorM NodeId
  | 0, f => CursorM.within S.options.maxDepth f.name
      (still S fun scope => throw (scope.noStrategy f.type))
  | levels + 1, f => CursorM.within S.options.maxDepth f.name do
      let w ← choose walkers S f.type
      w.convertField S (visit walkers S levels) f

/-- Converts the type at the cursor. -/
def dispatch (walkers : List Walker) (S : Setting) (t : TypeId) : CursorM NodeId := do
  let w ← choose walkers S t
  w.convert S (visit walkers S S.options.maxDepth) t

section Walk

variable {walkers : List Walker}

/-- What is done with the walker that is chosen is what is done with the strategy that is chosen. -/
private theorem returns_choose {next : Walker → CursorM NodeId} {plain : Strategy → BuildM NodeId}
    (h : ∀ w ∈ walkers, Returns p (next w) (plain w.strategy)) (fields : Field → BuildM NodeId)
    (t : TypeId) :
    Returns p (choose walkers S t >>= next)
      (Strategy.choose (walkers.map (·.strategy)) { S with position := p, visit := fields } t >>=
        plain) := by
  unfold choose Strategy.choose
  simp only [bind_assoc]
  refine (returns_still rfl).bind fun _ => ?_
  -- both lists are searched with the same test
  rw [Strategy.select, List.find?_map]
  have hsearch : walkers.find? ((fun s : Strategy => s.claims S.catalog t) ∘ (·.strategy)) =
    walkers.find? (·.strategy.claims S.catalog t) := rfl
  rw [hsearch]
  cases hfound : walkers.find? (·.strategy.claims S.catalog t) with
  | none => exact fun _ => rfl
  | some w => exact h w (List.mem_of_find?_eq_some hfound)

/-- Converting a field comes back, and does what it does without a cursor, if the bound on the
recursion allows for the levels that are left. -/
theorem returns_visit (hwalkers : ∀ w ∈ walkers, w.Follows) {levels : Nat} {p : Position}
    (hlevels : S.options.maxDepth ≤ p.depth + levels) (f : Field) :
    Returns p (visit walkers S levels f)
      (Walk.visit (walkers.map (·.strategy)) S (S.options.maxDepth - p.depth) p f) := by
  -- on the bound; the levels that are left decide whether the field is entered
  induction levels generalizing p f with
  | zero =>
    have hle : S.options.maxDepth ≤ p.depth := hlevels
    rw [Nat.sub_eq_zero_of_le hle]
    exact .within_of_le _ hle
  | succ levels ih =>
    by_cases hlt : p.depth < S.options.maxDepth
    · have hroom : S.options.maxDepth - p.depth =
          S.options.maxDepth - (p.enter f.name).depth + 1 := by
        rw [Position.depth_enter]
        omega
      have hbelow : S.options.maxDepth ≤ (p.enter f.name).depth + levels := by
        rw [Position.depth_enter]
        omega
      have hinside : ∀ w ∈ walkers, Returns (p.enter f.name)
          (w.convertField S (visit walkers S levels) f) (w.strategy.convertField _ f) :=
        fun w hw => (hwalkers w hw).convertField (ih hbelow) f
      rw [hroom, Walk.visit]
      exact .within hlt (returns_choose hinside _ f.type)
    · have hle : S.options.maxDepth ≤ p.depth := by omega
      rw [Nat.sub_eq_zero_of_le hle]
      exact .within_of_le _ hle

/-- So does converting a type. -/
theorem returns_dispatch (hwalkers : ∀ w ∈ walkers, w.Follows) (p : Position) (t : TypeId) :
    Returns p (dispatch walkers S t)
      (Walk.dispatch (walkers.map (·.strategy))
        (Walk.scopeAt (walkers.map (·.strategy)) S p) t) := by
  have hlevels : S.options.maxDepth ≤ p.depth + S.options.maxDepth := Nat.le_add_left _ _
  have hinside : ∀ w ∈ walkers, Returns p
      -- a walker that is chosen may visit fields as deep as the limit allows
      (w.convert S (visit walkers S S.options.maxDepth) t) (w.strategy.convert _ t) :=
    fun w hw => (hwalkers w hw).convert (returns_visit hwalkers hlevels) t
  rw [dispatch, Walk.dispatch, Walk.scopeAt]
  exact returns_choose hinside _ t

end Walk

end Walker

end Schemata
