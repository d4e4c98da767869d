import Schemata.Proofs.Walk.Lockstep

/-!
# Builds over other handles

Catalogs that agree give other handles to the same types.  A build over one of them is a renamed
build over the other if it has the same nodes, and the same entries under related handles.  Every
effect of a walk keeps this, so walks over catalogs that agree go in lockstep.

## Key results

- `Keyed.valueOf?_eq`: related keys are found with the same value
- `Renamed.openRecord` / `Renamed.closeRecord`: names, stages and fix-ups do not depend on handles
- `lockstep_of_agrees`: walks over catalogs that agree go in lockstep
-/

namespace Schemata

variable {R : TypeId → TypeId → Prop} {c c' : Catalog} {t t' : TypeId}

/-! ## Entries under related keys -/

/-- Entries with one value, under related keys. -/
def Keyed (R : TypeId → TypeId → Prop) {α : Type} (e e' : TypeId × α) : Prop :=
  R e.1 e'.1 ∧ e.2 = e'.2

namespace Keyed

variable {α : Type} {l l' : List (TypeId × α)}

/-- Related keys are found with the same value. -/
theorem valueOf?_eq (h : Catalog.Agrees R c c') (hl : List.Forall₂ (Keyed R) l l') (ht : R t t') :
    valueOf? l t = valueOf? l' t' := by
  induction hl with
  | nil => rfl
  | @cons e e' rest rest' he _ ih =>
    -- related types agree on being the key that is looked for
    have hkey := h.eq_iff he.1 ht
    by_cases hfound : e.1 = t
    · have hfound' := hkey.mp hfound
      simp [valueOf?, hfound, hfound', he.2]
    · have hother := mt hkey.mpr hfound
      simp only [valueOf?]
      rw [List.find?_cons_of_neg (by simpa using hfound),
        List.find?_cons_of_neg (by simpa using hother)]
      exact ih

/-- The values are the same, in the same order. -/
private theorem values_eq (hl : List.Forall₂ (Keyed R) l l') : l.map (·.2) = l'.map (·.2) := by
  rw [← List.forall₂_eq_eq_eq]
  exact List.rel_map (fun _ _ he => he.2) hl

/-- A pair more, under related keys, goes behind the others. -/
private theorem concat (hl : List.Forall₂ (Keyed R) l l') (ht : R t t') (v : α) :
    List.Forall₂ (Keyed R) (l ++ [(t, v)]) (l' ++ [(t', v)]) :=
  List.rel_append hl (.cons ⟨ht, rfl⟩ .nil)

/-- Values that are changed under related keys, and only there, stay the same. -/
private theorem map_at (h : Catalog.Agrees R c c') (hl : List.Forall₂ (Keyed R) l l') (ht : R t t')
    (f : α → α) :
    List.Forall₂ (Keyed R) (l.map fun e => if e.1 = t then (e.1, f e.2) else e)
      (l'.map fun e => if e.1 = t' then (e.1, f e.2) else e) := by
  refine List.rel_map (fun e e' he => ?_) hl
  have hkey := h.eq_iff he.1 ht
  by_cases hfound : e.1 = t
  · rw [if_pos hfound, if_pos (hkey.mp hfound)]
    exact ⟨he.1, congrArg f he.2⟩
  · rw [if_neg hfound, if_neg (mt hkey.mpr hfound)]
    exact he

/-- So do the entries that are left when related keys are taken out. -/
private theorem filter_ne (h : Catalog.Agrees R c c') (hl : List.Forall₂ (Keyed R) l l')
    (ht : R t t') : List.Forall₂ (Keyed R) (l.filter (·.1 ≠ t)) (l'.filter (·.1 ≠ t')) := by
  refine List.rel_filter (fun e e' he => ?_) hl
  simp only [decide_eq_true_eq, ne_eq, h.eq_iff he.1 ht]

end Keyed

/-! ## Renamed builds -/

namespace Build

/-- Builds with the same nodes, whose entries are the same under related handles.  Their logs, which
nothing reads, may differ. -/
structure Renamed (R : TypeId → TypeId → Prop) (b b' : Build) : Prop where
  arena : b.arena = b'.arena
  completed : List.Forall₂ (Keyed R) b.progress.completed b'.progress.completed
  expanding : List.Forall₂ (Keyed R) b.progress.expanding b'.progress.expanding
  names : List.Forall₂ (Keyed R) b.names.entries b'.names.entries

theorem renamed_empty (R : TypeId → TypeId → Prop) : Renamed R {} {} := ⟨rfl, .nil, .nil, .nil⟩

namespace Renamed

variable {b b' : Build} {id : NodeId}

private theorem notes?_eq (hb : Renamed R b b') (h : Catalog.Agrees R c c') (ht : R t t') :
    b.progress.notes? t = b'.progress.notes? t' := Keyed.valueOf?_eq h hb.expanding ht

private theorem node?_eq (hb : Renamed R b b') (h : Catalog.Agrees R c c') (ht : R t t') :
    b.progress.node? t = b'.progress.node? t' := Keyed.valueOf?_eq h hb.completed ht

private theorem stage_eq (hb : Renamed R b b') (h : Catalog.Agrees R c c') (ht : R t t') :
    b.progress.stage t = b'.progress.stage t' := by
  rw [Progress.stage, Progress.stage, hb.node?_eq h ht, hb.notes?_eq h ht]

private theorem visit (hb : Renamed R b b') (p : Position) (t t' : TypeId) :
    Renamed R (b.visit p t) (b'.visit p t') :=
  ⟨hb.arena, hb.completed, hb.expanding, hb.names⟩

private theorem store (hb : Renamed R b b') (n : Node) : Renamed R (b.store n) (b'.store n) :=
  ⟨congrArg (·.push n) hb.arena, hb.completed, hb.expanding, hb.names⟩

/-- What a node is referred to by depends on the nodes only. -/
private theorem refer (hb : Renamed R b b') (refPrefix : String) (id : NodeId) :
    (b.refer refPrefix id).1 = (b'.refer refPrefix id).1 ∧
      Renamed R (b.refer refPrefix id).2 (b'.refer refPrefix id).2 := by
  -- both look at one arena, so they do the same
  simp only [Build.refer, ← hb.arena]
  split
  · split
    · exact ⟨rfl, hb⟩
    · split
      · exact ⟨rfl, hb.store _⟩
      · exact ⟨rfl, hb⟩
  · exact ⟨rfl, hb⟩

private theorem defer (hb : Renamed R b b') (h : Catalog.Agrees R c c') (refPrefix : String)
    (ht : R t t') : Renamed R (b.defer refPrefix t) (b'.defer refPrefix t') where
  arena := congrArg (·.push .placeholder) hb.arena
  completed := hb.completed
  expanding := by
    -- the fix-up is for the same place, under the related type
    simp only [Build.defer, Progress.noted, hb.arena]
    exact Keyed.map_at h hb.expanding ht (· ++ [.naming refPrefix b'.arena.next])
  names := hb.names

/-- A record is given the same name. -/
private theorem request (hb : Renamed R b b') (h : Catalog.Agrees R c c') (ht : R t t') :
    (b.names.request c t).1 = (b'.names.request c' t').1 ∧
      List.Forall₂ (Keyed R) (b.names.request c t).2.entries
        (b'.names.request c' t').2.entries := by
  have hfound : b.names.name? t = b'.names.name? t' := Keyed.valueOf?_eq h hb.names ht
  have htaken : b.names.names = b'.names.names := Keyed.values_eq hb.names
  -- which name is free depends on the names that are taken, not on whose they are
  simp only [NameTable.request, ← hfound, ← htaken, h.simpleName ht, h.name ht]
  cases b.names.name? t with
  | some name => exact ⟨rfl, hb.names⟩
  | none => exact ⟨rfl, Keyed.concat hb.names ht _⟩

theorem openRecord (hb : Renamed R b b') (h : Catalog.Agrees R c c') (ht : R t t') :
    Renamed R (b.openRecord c t) (b'.openRecord c' t') where
  arena := by
    simp only [Build.openRecord, hb.arena, (hb.request h ht).1]
  completed := hb.completed
  expanding := Keyed.concat hb.expanding ht []
  names := (hb.request h ht).2

private theorem setProperty (hb : Renamed R b b') (object : NodeId) (name : String)
    (child : NodeId) :
    Renamed R (b.setProperty object name child) (b'.setProperty object name child) :=
  ⟨congrArg (·.modify object (·.addProperty name child)) hb.arena, hb.completed, hb.expanding,
    hb.names⟩

/-- The same fix-ups are run when related records are completed. -/
theorem closeRecord (hb : Renamed R b b') (h : Catalog.Agrees R c c') (ht : R t t')
    (object : NodeId) (notes : List Fixup) :
    Renamed R (b.closeRecord t object notes) (b'.closeRecord t' object notes) where
  arena := congrArg (Fixup.runAll notes object) hb.arena
  completed := Keyed.concat hb.completed ht object
  expanding := Keyed.filter_ne h hb.expanding ht
  names := hb.names

end Renamed

end Build

/-- Walks over catalogs that agree go in lockstep, if the policy lists the same fields. -/
theorem Walk.lockstep_of_agrees {options : Options} {policy : FieldPolicy}
    (h : Catalog.Agrees R c c')
    (hpolicy : ∀ {t t'}, R t t' → List.Forall₂ (Field.Matches R) (policy c t) (policy c' t')) :
    Lockstep ⟨c, options, policy⟩ ⟨c', options, policy⟩ R (Build.Renamed R) where
  limit := rfl
  catalog := h
  policy := hpolicy
  next hb := congrArg Arena.next hb.arena
  stage hb ht := hb.stage_eq h ht
  visit hb _ := hb.visit _ _ _
  store hb _ := hb.store _
  refer hb := hb.refer _ _
  defer hb ht := hb.defer h _ ht
  openRecord hb ht := hb.openRecord h ht
  setProperty hb := hb.setProperty _ _ _
  closeRecord hb ht hnotes :=
    ⟨_, (hb.notes?_eq h ht).symm.trans hnotes, hb.closeRecord h ht _ _⟩

end Schemata
