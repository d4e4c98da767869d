import Schemata.Field
import Schemata.Proofs.Catalog.Closed

/-!
# What a field policy lists

A walk works with any field policy whose fields have types of the catalog.  The usual policy has
this property on closed catalogs, and lists no name twice.
-/

namespace Schemata

/-- All fields that a policy lists for types of a catalog have types of the catalog. -/
def FieldPolicy.Closed (policy : FieldPolicy) (c : Catalog) : Prop :=
  ∀ {t}, c.Has t → ∀ f ∈ policy c t, c.Has f.type

namespace FieldPolicy

/-- A declared field is a member of a type of the catalog. -/
private theorem exists_member_of_mem_declared {c : Catalog} {t : TypeId}
    {d : TypeId × Member TypeId} (h : d ∈ declared c t) :
    ∃ u e, c.get? u = some e ∧ d.2 ∈ e.members := by
  obtain ⟨u, _, hd⟩ := List.mem_flatMap.mp h
  obtain ⟨m, hm, rfl⟩ := List.mem_map.mp hd
  cases he : c.get? u with
  | none => rw [he] at hm; cases hm
  | some e => rw [he] at hm; exact ⟨u, e, he, hm⟩

/-- What is nearest is one of the entries. -/
private theorem nearest_sublist (hidden : List String) (l : List (TypeId × Member TypeId)) :
    (nearest hidden l).Sublist l := by
  -- on the list, with more hidden names behind each entry that is kept
  induction l generalizing hidden with
  | nil => exact List.Sublist.refl _
  | cons d rest ih =>
    rw [nearest]
    split
    · exact (ih hidden).cons d
    · exact (ih _).cons_cons d

/-- Names that were met before do not come again. -/
private theorem name_notMem_hidden {hidden : List String} {l : List (TypeId × Member TypeId)}
    {d : TypeId × Member TypeId} (h : d ∈ nearest hidden l) : d.2.name ∉ hidden := by
  -- on the list; the name of an entry that is kept is hidden further on
  induction l generalizing hidden with
  | nil => exact nomatch h
  | cons e rest ih =>
    rw [nearest] at h
    split at h
    · exact ih h
    · rename_i hnew
      rcases List.mem_cons.mp h with rfl | h
      · exact hnew
      · exact fun hmem => ih h (List.mem_cons_of_mem _ hmem)

/-- Only the first entry of each name is nearest. -/
private theorem nearest_names_nodup (hidden : List String) (l : List (TypeId × Member TypeId)) :
    ((nearest hidden l).map (·.2.name)).Nodup := by
  induction l generalizing hidden with
  | nil => exact List.nodup_nil
  | cons d rest ih =>
    rw [nearest]
    split
    · exact ih hidden
    · -- what is nearest further on was not hidden, so it has another name than this one
      rw [List.map_cons, List.nodup_cons]
      refine ⟨fun hmem => ?_, ih _⟩
      obtain ⟨e, he, hname⟩ := List.mem_map.mp hmem
      exact name_notMem_hidden he (hname ▸ List.mem_cons_self)

/-- The usual policy lists no name twice. -/
theorem accessible_names_nodup (c : Catalog) (t : TypeId) :
    ((accessible c t).map (·.name)).Nodup := by
  simp only [accessible, List.map_map]
  exact (nearest_names_nodup [] (declared c t)).sublist (List.filter_sublist.map _)

/-- The usual policy lists only fields whose types belong to the catalog. -/
theorem accessible_closed {c : Catalog} (hc : c.Closed) : Closed accessible c := by
  intro t _ f hf
  simp only [accessible] at hf
  obtain ⟨d, hd, rfl⟩ := List.mem_map.mp hf
  have hdecl := (nearest_sublist [] _).subset (List.mem_filter.mp hd).1
  obtain ⟨u, e, he, hm⟩ := exists_member_of_mem_declared hdecl
  exact hc.member he _ hm

end FieldPolicy

end Schemata
