import Schemata.Proofs.Field.Accessible
import Schemata.Proofs.Text.Lowercase

/-!
# Accessors that are spelled like their fields

A method is the accessor of a field if its name, all in lower case, is a prefix and behind it the
name of the field in lower case.  The name of the field is mapped to lower case by itself, but in
the name of the method it has the prefix in front.  This makes a difference for a field that starts
with a capital sigma which no letter follows: the method that is spelled like the field has a final
sigma in lower case, the field has not, and so the method is not its accessor.

## Key results

- `isAccessorOf_spelled_iff`: when the method that is spelled like a field is its accessor
- `mem_names_iff_of_spelled`: which fields that have such a method are listed
-/

namespace Schemata.FieldPolicy

variable {c : Catalog} {t : TypeId}

/-- The accessor of a field in the spelling of the field. -/
def spelledAccessor (c : Catalog) (m : Member TypeId) : String := accessorPrefix c m ++ m.name

/-- Both prefixes are made of small letters. -/
private theorem isLower_of_mem_accessorPrefix (c : Catalog) (m : Member TypeId) :
    ∀ ch ∈ (accessorPrefix c m).toList, ch.isLower = true := by
  refine List.all_eq_true.mp ?_
  rw [accessorPrefix]
  split <;> decide

/-- No prefix is empty. -/
private theorem accessorPrefix_ne_nil (c : Catalog) (m : Member TypeId) :
    (accessorPrefix c m).toList ≠ [] := by
  rw [accessorPrefix]
  split <;> decide

/-- An accessor starts with one of the two prefixes. -/
private theorem start_spelledAccessor (c : Catalog) (m : Member TypeId) :
    "get".toList <+: (spelledAccessor c m).toList ∨
      "is".toList <+: (spelledAccessor c m).toList := by
  rw [spelledAccessor, String.toList_append, accessorPrefix]
  split
  · exact .inr (List.prefix_append _ _)
  · exact .inl (List.prefix_append _ _)

/-- The method that is spelled like a field is its accessor, unless the field starts with a capital
sigma that no letter follows. -/
theorem isAccessorOf_spelled_iff {m : Member TypeId} :
    IsAccessorOf c m (spelledAccessor c m) ↔ Text.startsWithLoneSigma m.name.toList = false := by
  rw [← Text.lowercase_append_eq_iff (isLower_of_mem_accessorPrefix c m)
    (accessorPrefix_ne_nil c m)]
  exact ⟨fun h => h.lower, fun h => ⟨start_spelledAccessor c m, h⟩⟩

/-- A field that is not public is written if the method that is spelled like it is its accessor, or
another one. -/
private theorem isWritten_iff_of_spelled {m : Member TypeId}
    (hvisibility : m.visibility ≠ .everyone) (hmethod : HasMethod c t (spelledAccessor c m)) :
    IsWritten c t m ↔ Text.startsWithLoneSigma m.name.toList = false ∨
      ∃ method, HasMethod c t method ∧ method ≠ spelledAccessor c m ∧ IsAccessorOf c m method := by
  rw [← isAccessorOf_spelled_iff (c := c)]
  constructor
  · rintro (⟨hpublic, _⟩ | ⟨_, method, hhas, haccessor⟩)
    -- the field is not public, so an accessor makes it written
    · exact absurd hpublic hvisibility
    · by_cases hspelled : method = spelledAccessor c m
      · exact .inl (hspelled ▸ haccessor)
      · exact .inr ⟨method, hhas, hspelled, haccessor⟩
  · rintro (haccessor | ⟨method, hhas, _, haccessor⟩)
    · exact .inr ⟨hvisibility, _, hmethod, haccessor⟩
    · exact .inr ⟨hvisibility, method, hhas, haccessor⟩

/-- If the nearest field of a name is not public, and a type on the chain has the method that is
spelled like it, the name is listed.  The only exception are names that start with a capital sigma
which no letter follows; these are listed if a type on the chain has an accessor of another
spelling. -/
theorem mem_names_iff_of_spelled {s : Site} (hs : s.IsNearest c t)
    (hvisibility : s.member.visibility ≠ .everyone)
    (hmethod : HasMethod c t (spelledAccessor c s.member)) :
    s.member.name ∈ (accessible c t).map (·.name) ↔
      Text.startsWithLoneSigma s.member.name.toList = false ∨
        ∃ method, HasMethod c t method ∧ method ≠ spelledAccessor c s.member ∧
          IsAccessorOf c s.member method := by
  rw [hs.mem_names_iff, isWritten_iff_of_spelled hvisibility hmethod]

/-! ## Fields that start with a sigma -/

/-- Two records with one field each, that starts with a capital sigma, and its accessor. -/
def seriesDecls : List TypeDecl :=
  [TypeDecl.record "Series"
      |>.withMember { name := "Σ", type := "int", visibility := .owner }
      |>.withMethod "getΣ",
    TypeDecl.record "Closure"
      |>.withMember { name := "Σa", type := "boolean", visibility := .owner }
      |>.withMethod "isΣa"]

/-- The only field of a record. -/
def onlySite (t : TypeId) (name : String) (s : Scalar) : Site where
  distance := 0
  declaring := t
  index := 0
  member := { name := name, type := Catalog.scalar s, visibility := .owner }

/-- The flag is listed, for a letter follows its sigma. -/
theorem mem_names_iff_of_spelled_closure :
    ∃ c, Catalog.ofDecls seriesDecls = .ok c ∧
      (onlySite ⟨13⟩ "Σa" .boolean).IsNearest c ⟨13⟩ ∧
      spelledAccessor c (onlySite ⟨13⟩ "Σa" .boolean).member = "isΣa" ∧
      HasMethod c ⟨13⟩ "isΣa" ∧ "Σa" ∈ (accessible c ⟨13⟩).map (·.name) := by
  obtain ⟨c, hc, hnearest, hspelled, hmethod⟩ : ∃ c, Catalog.ofDecls seriesDecls = .ok c ∧
      (onlySite ⟨13⟩ "Σa" .boolean).IsNearest c ⟨13⟩ ∧
      spelledAccessor c (onlySite ⟨13⟩ "Σa" .boolean).member = "isΣa" ∧
      HasMethod c ⟨13⟩ "isΣa" :=
    ⟨_, rfl, by decide +kernel, by decide +kernel, by decide +kernel⟩
  -- the letter behind the sigma is a small one
  have hletter : Text.startsWithLoneSigma ['Σ', 'a'] = false := by
    simp [Text.startsWithLoneSigma_cons, Text.meetsCased_cons, Text.isCaseIgnorable_of_isLower,
      Text.isCased_of_isLower]
  exact ⟨c, hc, hnearest, hspelled, hmethod,
    (mem_names_iff_of_spelled hnearest (by decide) (hspelled ▸ hmethod)).mpr (.inl hletter)⟩

/-- The number is not listed, although it is not public and its record has the method that is
spelled like it. -/
theorem series_not_listed :
    ∃ c, Catalog.ofDecls seriesDecls = .ok c ∧ c.Has ⟨12⟩ ∧
      (onlySite ⟨12⟩ "Σ" .int).IsNearest c ⟨12⟩ ∧
      spelledAccessor c (onlySite ⟨12⟩ "Σ" .int).member = "getΣ" ∧
      HasMethod c ⟨12⟩ "getΣ" ∧ "Σ" ∉ (accessible c ⟨12⟩).map (·.name) := by
  obtain ⟨c, hc, hhas, hnearest, hspelled, hmethods⟩ : ∃ c, Catalog.ofDecls seriesDecls = .ok c ∧
      c.Has ⟨12⟩ ∧ (onlySite ⟨12⟩ "Σ" .int).IsNearest c ⟨12⟩ ∧
      spelledAccessor c (onlySite ⟨12⟩ "Σ" .int).member = "getΣ" ∧ methods c ⟨12⟩ = ["getΣ"] :=
    ⟨_, rfl, Catalog.has_of_get? rfl, by decide +kernel, by decide +kernel, by decide +kernel⟩
  -- the record has one method only
  have hmethod : ∀ method, HasMethod c ⟨12⟩ method ↔ method = "getΣ" := fun method => by
    rw [← mem_methods_iff, hmethods, List.mem_singleton]
  have hlone : Text.startsWithLoneSigma ['Σ'] = true := by
    simp [Text.startsWithLoneSigma_cons, Text.meetsCased]
  -- neither this method nor another one is an accessor
  refine ⟨c, hc, hhas, hnearest, hspelled, (hmethod _).mpr rfl, fun hlisted => ?_⟩
  rcases (isWritten_iff_of_spelled (by decide) ((hmethod _).mpr hspelled)).mp
    (hnearest.mem_names_iff.mp hlisted) with hnone | ⟨method, hhas, hother, _⟩
  · exact absurd (hlone.symm.trans hnone) (by decide)
  · exact hother (((hmethod method).mp hhas).trans hspelled.symm)

end Schemata.FieldPolicy
