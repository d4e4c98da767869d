import Mathlib.Data.List.Nodup

/-!
# Looking up keys in lists of pairs

Name tables, the progress of expansions and documents keep lists of pairs and find the first pair
with a given key.  These lemmas say what such a search finds, in terms of the list of keys.
-/

namespace Schemata

variable {α β : Type} [DecidableEq α] {l l' : List (α × β)} {k : α} {v : β}

/-- The value that the first pair with a given key holds. -/
abbrev valueOf? (l : List (α × β)) (k : α) : Option β := (l.find? (·.1 = k)).map (·.2)

/-- A value that is found stands in the list with its key. -/
theorem mem_of_valueOf? (h : valueOf? l k = some v) : (k, v) ∈ l := by
  obtain ⟨e, he, rfl⟩ := Option.map_eq_some_iff.mp h
  obtain rfl : e.1 = k := by simpa using List.find?_some he
  exact List.mem_of_find?_eq_some he

/-- Nothing is found exactly under the keys that the list does not have. -/
theorem valueOf?_eq_none_iff : valueOf? l k = none ↔ k ∉ l.map (·.1) := by
  rw [Option.map_eq_none_iff, List.find?_eq_none, List.mem_map]
  constructor
  · rintro h ⟨e, he, rfl⟩
    exact h e he (by simp)
  · rintro h e he
    simpa using fun hk => h ⟨e, he, hk⟩

/-- Something is found exactly under the keys of the list. -/
theorem isSome_valueOf?_iff : (valueOf? l k).isSome ↔ k ∈ l.map (·.1) := by
  rw [← not_iff_not, ← valueOf?_eq_none_iff, Option.not_isSome_iff_eq_none]

/-- If no key comes twice, the value of every pair is found. -/
theorem valueOf?_of_mem (hl : (l.map (·.1)).Nodup) (h : (k, v) ∈ l) : valueOf? l k = some v := by
  -- on the list; a pair that comes first is found, and one further on has another key
  induction l with
  | nil => exact nomatch h
  | cons e rest ih =>
    rw [List.map_cons, List.nodup_cons] at hl
    rcases List.mem_cons.mp h with rfl | h
    · simp [valueOf?]
    · have hne : e.1 ≠ k := by
        rintro rfl
        exact hl.1 (List.mem_map.mpr ⟨_, h, rfl⟩)
      rw [valueOf?, List.find?_cons_of_neg (by simpa using hne)]
      exact ih hl.2 h

/-- The second list is searched if the first has no such key. -/
theorem valueOf?_append : valueOf? (l ++ l') k = (valueOf? l k).or (valueOf? l' k) := by
  rw [valueOf?, List.find?_append, Option.map_or]

/-- In a list of one pair, the value of its key is found and no other. -/
theorem valueOf?_singleton (a : α) (v : β) :
    valueOf? [(a, v)] k = if a = k then some v else none := by
  by_cases h : a = k <;> simp [valueOf?, h]

/-- What is found is the value of the first pair with the key. -/
theorem valueOf?_eq_some_iff :
    valueOf? l k = some v ↔ ∃ front back, l = front ++ (k, v) :: back ∧ k ∉ front.map (·.1) := by
  constructor
  -- the search stops at the pair, and has passed over those before it
  · intro h
    obtain ⟨e, he, rfl⟩ := Option.map_eq_some_iff.mp h
    obtain ⟨hk, front, back, rfl, hfront⟩ := List.find?_eq_some_iff_append.mp he
    obtain rfl : e.1 = k := by simpa using hk
    refine ⟨front, back, rfl, fun hmem => ?_⟩
    obtain ⟨other, hother, hsame⟩ := List.mem_map.mp hmem
    have hne := hfront other hother
    simp [hsame] at hne
  · rintro ⟨front, back, rfl, hfront⟩
    have hnone : valueOf? front k = none := valueOf?_eq_none_iff.mpr hfront
    rw [valueOf?_append, hnone, Option.none_or]
    simp [valueOf?]

/-- What is found stays when pairs are added behind. -/
theorem valueOf?_of_prefix (hp : l <+: l') (h : valueOf? l k = some v) :
    valueOf? l' k = some v := by
  obtain ⟨more, rfl⟩ := hp
  rw [valueOf?_append, h, Option.some_or]

end Schemata
