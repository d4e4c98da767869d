import Schemata.Proofs.Catalog.Declared
import Schemata.Proofs.Field

/-!
# Catalogs that agree

Two catalogs agree on related types if these say the same, of related types again.  Then all that is
read off a type agrees as well: its elements, its ancestors, and the fields that are written.

## Key results

- `agrees_of_subset`: a catalog agrees with one that has more declarations, in any order
- `Agrees.ancestors`: the ancestors of related types are related
- `FieldPolicy.accessible_matches`: related types have the same fields, of related types
-/

namespace Schemata

namespace Catalog

/-- Related types say the same, of related types, and no type is related to two. -/
structure Agrees (R : TypeId → TypeId → Prop) (c c' : Catalog) : Prop where
  get : ∀ {t t'}, R t t' → ∃ d d', c.get? t = some d ∧ c'.get? t' = some d' ∧ d.Matches R d'
  eq_iff : ∀ {t t' u u'}, R t t' → R u u' → (t = u ↔ t' = u')

/-- A catalog agrees with one that has all its declarations, in any order, and perhaps others. -/
theorem agrees_of_subset {decls decls' : List TypeDecl} {c c' : Catalog}
    (h : ofDecls decls = .ok c) (h' : ofDecls decls' = .ok c') (hsub : decls ⊆ decls') :
    Agrees (Alike c c') c c' where
  get ht := ht.matches h h' hsub
  eq_iff ht hu := ht.eq_iff h h' hu

namespace Agrees

variable {R : TypeId → TypeId → Prop} {c c' : Catalog} {t t' : TypeId}

/-! ## What is read off a type -/

/-- Related types have the same name. -/
theorem name (h : Agrees R c c') (ht : R t t') : c'.name t' = c.name t := by
  obtain ⟨d, d', hd, hd', hsame⟩ := h.get ht
  simp only [Catalog.name, hd, hd', Option.map_some, Option.getD_some, hsame.name]

/-- Related types have the same short name. -/
theorem simpleName (h : Agrees R c c') (ht : R t t') : c'.simpleName t' = c.simpleName t := by
  obtain ⟨d, d', hd, hd', hsame⟩ := h.get ht
  simp only [Catalog.simpleName, hd, hd', Option.map_some, Option.getD_some, hsame.simpleName]

/-- Related types have shapes of the same kind. -/
private theorem shape (h : Agrees R c c') (ht : R t t') :
    ∃ s s', c.shape? t = some s ∧ c'.shape? t' = some s' ∧ s.Matches R s' := by
  obtain ⟨d, d', hd, hd', hsame⟩ := h.get ht
  exact ⟨d.shape, d'.shape, by rw [shape?, hd]; rfl, by rw [shape?, hd']; rfl, hsame.shape⟩

/-- The shape of a type is that of its partner, with related elements. -/
theorem shape_of_eq (h : Agrees R c c') (ht : R t t') {s : Shape TypeId}
    (hs : c.shape? t = some s) : ∃ s', c'.shape? t' = some s' ∧ s.Matches R s' := by
  obtain ⟨s₁, s', hs₁, hs', hsame⟩ := h.shape ht
  rw [hs, Option.some.injEq] at hs₁
  subst hs₁
  exact ⟨s', hs', hsame⟩

/-- Related types have related superclasses, or none. -/
private theorem superclass (h : Agrees R c c') (ht : R t t') :
    Option.Rel R (c.superclass? t) (c'.superclass? t') := by
  obtain ⟨d, d', hd, hd', hsame⟩ := h.get ht
  rw [superclass?, superclass?, hd, hd']
  exact hsame.superclass

/-- Related types have related elements, or none. -/
theorem element (h : Agrees R c c') (ht : R t t') :
    Option.Rel R (c.element? t) (c'.element? t') := by
  obtain ⟨s, s', hs, hs', hsame⟩ := h.shape ht
  rw [element?_eq_of_shape? hs, element?_eq_of_shape? hs']
  exact hsame.element?

/-- A type is converted as a record exactly if its partner is. -/
theorem isRecord (h : Agrees R c c') (ht : R t t') : c'.isRecord t' = c.isRecord t := by
  obtain ⟨s, s', hs, hs', hsame⟩ := h.shape ht
  rw [Catalog.isRecord, Catalog.isRecord, hs, hs']
  -- the kind of the shape decides, and it is the same on both sides
  cases hsame <;> rfl

/-- A type is the boolean type exactly if its partner is. -/
private theorem isBoolean (h : Agrees R c c') (ht : R t t') : c'.isBoolean t' = c.isBoolean t := by
  obtain ⟨s, s', hs, hs', hsame⟩ := h.shape ht
  rw [Catalog.isBoolean, Catalog.isBoolean, hs, hs']
  cases hsame <;> simp

/-- Related types have the same number of ancestors, and these are related one by one. -/
theorem ancestors (h : Agrees R c c') (hc : c.Closed) (hc' : c'.Closed) (ht : R t t') :
    List.Forall₂ R (c.ancestors t) (c'.ancestors t') := by
  revert t'
  -- on the chain of superclasses in the first catalog
  refine chain_induction (motive := fun t => ∀ {t'}, R t t' →
    List.Forall₂ R (c.ancestors t) (c'.ancestors t')) ?_ ?_ (hc.superclass_ends t)
  -- without a superclass there is one ancestor on each side, the type itself
  · intro t hnone t' ht
    have hrel := h.superclass ht
    rw [hnone] at hrel
    cases hnone' : c'.superclass? t' with
    | some u' =>
      rw [hnone'] at hrel
      cases hrel
    | none =>
      rw [Catalog.ancestors, Catalog.ancestors, chain_of_none _ hnone, chain_of_none _ hnone']
      exact .cons ht .nil
  -- with one, the ancestors are the type itself and those of the superclass
  · intro t u hends hu ih t' ht
    have hrel := h.superclass ht
    rw [hu] at hrel
    cases hu' : c'.superclass? t' with
    | none =>
      rw [hu'] at hrel
      cases hrel
    | some u' =>
      rw [hu'] at hrel
      cases hrel with
      | some hsuper =>
        rw [Catalog.ancestors, Catalog.ancestors, chain_of_some hends hu,
          chain_of_some (hc'.superclass_ends t') hu']
        exact .cons ht (ih hsuper)

end Agrees

end Catalog

/-! ## Fields -/

/-- Fields of one name, whose types are related, and declared by related types. -/
structure Field.Matches (R : TypeId → TypeId → Prop) (f f' : Field) : Prop where
  name : f.name = f'.name
  type : R f.type f'.type
  declaring : R f.declaring f'.declaring

/-- Members of one kind, declared by related types. -/
def MatchesDeclared (R : TypeId → TypeId → Prop) (d d' : TypeId × Member TypeId) : Prop :=
  R d.1 d'.1 ∧ d.2.Matches R d'.2

namespace FieldPolicy

variable {R : TypeId → TypeId → Prop} {c c' : Catalog} {t t' : TypeId}

/-- Hiding goes by names, so the same entries are hidden. -/
private theorem nearest_matches (hidden : List String) {l l' : List (TypeId × Member TypeId)}
    (h : List.Forall₂ (MatchesDeclared R) l l') :
    List.Forall₂ (MatchesDeclared R) (nearest hidden l) (nearest hidden l') := by
  induction h generalizing hidden with
  | nil => exact .nil
  -- the entries carry one name, so both are hidden or both are kept
  | cons hd _ ih =>
    rw [nearest, nearest, hd.2.name]
    split
    · exact ih hidden
    · exact .cons hd (ih _)

section Agrees

variable (h : Catalog.Agrees R c c') (hc : c.Closed) (hc' : c'.Closed) (ht : R t t')

include h hc hc' ht

/-- The members of related types and of their ancestors match one by one. -/
private theorem declared_matches :
    List.Forall₂ (MatchesDeclared R) (declared c t) (declared c' t') := by
  -- ancestor by ancestor, and in each of them member by member
  refine List.rel_flatMap (h.ancestors hc hc' ht) fun u u' hu => ?_
  obtain ⟨d, d', hd, hd', hsame⟩ := h.get hu
  rw [hd, hd']
  exact List.rel_map (fun _ _ hm => ⟨hu, hm⟩) hsame.members

/-- Related types have the same methods, those of the ancestors included. -/
private theorem methods_eq : methods c t = methods c' t' := by
  have hlists : List.Forall₂ (· = ·) (methods c t) (methods c' t') := by
    refine List.rel_flatMap (h.ancestors hc hc' ht) fun u u' hu => ?_
    obtain ⟨d, d', hd, hd', hsame⟩ := h.get hu
    rw [hd, hd', List.forall₂_eq_eq_eq]
    exact hsame.methods
  rwa [List.forall₂_eq_eq_eq] at hlists

/-- Related types have the same fields, of related types. -/
theorem accessible_matches :
    List.Forall₂ (Field.Matches R) (accessible c t) (accessible c' t') := by
  have haccessors : accessors c t = accessors c' t' := by
    rw [accessors, accessors, methods_eq h hc hc' ht]
  have hnearest := nearest_matches [] (declared_matches h hc hc' ht)
  simp only [accessible]
  refine List.rel_map (fun d d' hd => ⟨hd.2.name, hd.2.type, hd.1⟩)
    (List.rel_filter (fun d d' hd => ?_) hnearest)
  -- what decides on a member is the same on both sides
  simp only [isAccessible, accessorName, haccessors, hd.2.visibility, hd.2.isStatic, hd.2.isFinal,
    hd.2.name, h.isBoolean hd.2.type]

end Agrees

end FieldPolicy

end Schemata
