import Schemata.Proofs.Walk.Depth
import Schemata.Proofs.Walk.Limit

/-!
# What a walk meets

From a type a walk goes to its fields or its elements, and nowhere else.  So what is handed down
from types to those holds of all sites that a walk meets, if it holds of the site where the walk
begins, and also of the place that the error of a walk names.  No site is deeper than the levels
allow that are left for the walk.

## Key results

- `Runs.meets`: what a part of a walk meets, and where it fails
-/

namespace Schemata

/-- What holds of a site also holds of the sites one level below it. -/
structure HandedDown (c : Catalog) (policy : FieldPolicy) (P : Position → TypeId → Prop) :
    Prop where
  field {p t f} (h : P p t) (hrecord : c.isRecord t = true) (hf : f ∈ policy c t) :
    P (p.enter f.name) f.type
  elements {p t e} (h : P p t) (helement : c.element? t = some e) : P (p.enter "items") e

/-- To be a place that compiling roots can come to is handed down. -/
theorem IsSite.handedDown (c : Catalog) (policy : FieldPolicy) (roots : List TypeId) :
    HandedDown c policy (IsSite c policy roots) := ⟨.field, .elements⟩

/-- To be below a position is handed down. -/
theorem HandedDown.of_prefix (c : Catalog) (policy : FieldPolicy) (path : List String) :
    HandedDown c policy fun p _ => path <+: p.path where
  field h _ _ := h.trans (List.prefix_append _ _)
  elements h _ := h.trans (List.prefix_append _ _)

/-- What is done to a build meets sites with a property, down to some depth, and if it fails, the
error names a place with that property. -/
structure Meets (P : Position → TypeId → Prop) (lowest : Nat) (b : Build)
    (r : Except CompileError NodeId × Build) : Prop where
  met : ∃ met, r.2.visited = b.visited ++ met ∧
    ∀ site ∈ met, P site.1 site.2 ∧ site.1.depth ≤ lowest
  named : ∀ e, r.1 = .error e → ∃ p t, P p t ∧ e.path? = some p.text

namespace Meets

variable {P : Position → TypeId → Prop} {lowest : Nat} {b b' : Build}
  {r r' : Except CompileError NodeId × Build} {p : Position} {t : TypeId}

/-- What meets no site, and does not fail. -/
private theorem of_visited (hvisited : b'.visited = b.visited) (id : NodeId) :
    Meets P lowest b (.ok id, b') where
  met := ⟨[], hvisited.trans (List.append_nil _).symm, fun _ hsite => nomatch hsite⟩
  named _ herror := nomatch herror

/-- What ends differently, but meets the same sites and fails only in the same way. -/
private theorem of_eq (h : Meets P lowest b r) (hvisited : r'.2.visited = r.2.visited)
    (herror : ∀ e, r'.1 = .error e → r.1 = .error e) : Meets P lowest b r' where
  met := by
    rw [hvisited]
    exact h.met
  named e he := h.named e (herror e he)

/-- What begins where the same sites were met. -/
private theorem of_begun (h : Meets P lowest b' r) (hvisited : b'.visited = b.visited) :
    Meets P lowest b r where
  met := by
    rw [← hvisited]
    exact h.met
  named := h.named

/-- What meets its sites after others were met. -/
private theorem after {met : List (Position × TypeId)} (h : Meets P lowest b' r)
    (hvisited : b'.visited = b.visited ++ met)
    (hmet : ∀ site ∈ met, P site.1 site.2 ∧ site.1.depth ≤ lowest) : Meets P lowest b r where
  met := by
    obtain ⟨more, hmore, hall⟩ := h.met
    refine ⟨met ++ more, ?_, List.forall_mem_append.mpr ⟨hmet, hall⟩⟩
    rw [hmore, hvisited, List.append_assoc]
  named := h.named

/-- What meets its sites after a visit. -/
private theorem of_visit (h : Meets P lowest (b.visit p t) r) (hp : P p t)
    (hdepth : p.depth ≤ lowest) : Meets P lowest b r := by
  apply h.after (Build.visited_visit b p t)
  intro site hsite
  obtain rfl := List.mem_singleton.mp hsite
  exact ⟨hp, hdepth⟩

end Meets

namespace Walk

variable {S : Setting} {task : Task} {b : Build} {r : Except CompileError NodeId × Build}
  {P : Position → TypeId → Prop}

namespace Task

/-- A task begins at a site with a property: a field at that of its type, a type at its own, and
fields at those of all their types. -/
def At (P : Position → TypeId → Prop) : Task → Prop
  | .field _ p f => P (p.enter f.name) f.type
  | .type _ p t => P p t
  | .fields _ p _ fs => ∀ f ∈ fs, P (p.enter f.name) f.type

/-- The lowest depth to which a task may go. -/
def lowest (task : Task) : Nat := task.position.depth + task.room

private theorem lowest_field (room : Nat) (p : Position) (f : Field) :
    (Task.field (room + 1) p f).lowest = (Task.type room (p.enter f.name) f.type).lowest := by
  -- one level less, but the position is one level deeper
  simp only [lowest, position, Task.room, Position.depth_enter]
  omega

private theorem depth_le_lowest (room : Nat) (p : Position) (t : TypeId) :
    p.depth ≤ (Task.type room p t).lowest := Nat.le_add_right _ _

end Task

/-- A part of a walk meets sites with a property that is handed down, if it begins at one. -/
theorem Runs.meets (h : Runs S task b r) (hP : HandedDown S.catalog S.policy P)
    (htask : task.At P) : Meets P task.lowest b r := by
  -- on the run; the parts of a task begin at sites with the property if the task does
  induction h with
  -- the error names the field that was too deep, which was not visited
  | @tooDeep p f b =>
    constructor
    case met => exact ⟨[], (List.append_nil _).symm, fun _ hsite => nomatch hsite⟩
    case named =>
      intro e he
      cases he
      exact ⟨p.enter f.name, f.type, htask, rfl⟩
  | fieldPlain _ _ ih | fieldFailed _ ih =>
    rw [Task.lowest_field]
    exact ih htask
  | fieldRecord _ _ ih =>
    -- referring to a record afterwards meets nothing
    rw [Task.lowest_field]
    exact (ih htask).of_eq (Build.visited_refer _ _ _) fun _ herror => nomatch herror
  | scalar | enumeration | unknownElements | known | deferred =>
    refine Meets.of_visit ?_ htask (Task.depth_le_lowest _ _ _)
    apply Meets.of_visited
    rfl
  | @elements room p t b e items b' helement _ ih =>
    -- elements are one level further down, and storing their container meets nothing
    have hitems := ih (hP.elements htask helement)
    refine (hitems.of_eq ?_ ?_).of_visit htask (Task.depth_le_lowest room p t)
    · exact Build.visited_store _ _
    · exact fun _ herror => nomatch herror
  | @elementsFailed room p t b e err b' helement _ ih =>
    have hitems := ih (hP.elements htask helement)
    exact hitems.of_visit htask (Task.depth_le_lowest room p t)
  | @expanded room p t b b' notes hrecord _ _ _ ih =>
    -- neither opening nor closing the record meets a site
    have hfields := ih fun f hf => hP.field htask hrecord hf
    have hopen := hfields.of_begun (Build.visited_openRecord (b.visit p t) _ _)
    refine (hopen.of_eq ?_ ?_).of_visit htask (Task.depth_le_lowest room p t)
    · exact Build.visited_closeRecord _ _ _ _
    · exact fun _ herror => nomatch herror
  | @expansionFailed room p t b e b' hrecord _ _ ih =>
    have hfields := ih fun f hf => hP.field htask hrecord hf
    have hopen := hfields.of_begun (Build.visited_openRecord (b.visit p t) _ _)
    exact hopen.of_visit htask (Task.depth_le_lowest room p t)
  | noFields => exact .of_visited rfl _
  | nextField _ _ ih ihrest =>
    -- the sites of the first field come before those of the others
    obtain ⟨met, hmet, hall⟩ := (ih (htask _ List.mem_cons_self)).met
    have hrest := ihrest fun f hf => htask f (List.mem_cons_of_mem _ hf)
    exact hrest.after hmet hall
  | fieldsFailed _ ih =>
    exact (ih (htask _ List.mem_cons_self)).of_eq rfl fun _ herror => herror

end Walk

end Schemata
