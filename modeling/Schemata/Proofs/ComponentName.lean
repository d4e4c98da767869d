import Schemata.ComponentName
import Schemata.Proofs.Lookup

/-!
# Fresh names of components

A name given for the first time is held by no other type.  Of the numbered names that are tried, one
is free, since there are more of them than names are taken.

## Key results

- `fresh_notMem`: a fresh name is not taken
- `request_of_none`: what a request does to the table
- `eq_of_name?_eq`: names tell types apart
-/

namespace Schemata.NameTable

/-- The types that have a name, in the order in which they were given one. -/
def types (table : NameTable) : List TypeId := table.entries.map (·.1)

/-- Different numbers make different names. -/
private theorem numbered_injective {base : String} {m n : Nat}
    (h : numbered base m = numbered base n) : m = n := by
  -- the base is the same, so the digits are
  have hdigits : Nat.toDigits 10 m = Nat.toDigits 10 n := by
    simpa [numbered, Nat.toString_eq_ofList_toDigits] using congrArg String.toList h
  rw [← Nat.ofDigitChars_ten_toDigits (n := m), hdigits, Nat.ofDigitChars_ten_toDigits]

/-- If the search ends with a name that is taken, all the names that it tried are taken. -/
private theorem numbered_mem_of_firstFree_mem {taken : List String} {base : String} {tries n : Nat}
    (h : firstFree taken base tries n ∈ taken) : ∀ k ≤ tries, numbered base (n + k) ∈ taken := by
  -- on the tries that are left, each of which starts with the next number
  induction tries generalizing n with
  | zero =>
    intro k hk
    obtain rfl : k = 0 := by omega
    exact h
  | succ tries ih =>
    rw [firstFree] at h
    split at h
    · -- the first name was taken too, and the search went on behind it
      rename_i hn
      intro k hk
      cases k with
      | zero => exact hn
      | succ k =>
        have hmem := ih h k (by omega)
        rwa [Nat.add_right_comm] at hmem
    · contradiction

/-- A search with as many tries as there are names taken finds a free name. -/
theorem firstFree_notMem (taken : List String) (base : String) (n : Nat) :
    firstFree taken base taken.length n ∉ taken := by
  intro h
  have hall := numbered_mem_of_firstFree_mem h
  -- one name more than are taken would be taken
  let tried := (List.range (taken.length + 1)).map fun k => numbered base (n + k)
  have hnodup : tried.Nodup :=
    List.nodup_range.map fun i j hij => by have := numbered_injective hij; omega
  have hsub : tried ⊆ taken := by
    intro name hname
    obtain ⟨k, hk, rfl⟩ := List.mem_map.mp hname
    exact hall k (by have := List.mem_range.mp hk; omega)
  have hle := hnodup.length_le_of_subset hsub
  simp only [tried, List.length_map, List.length_range] at hle
  omega

/-- A fresh name is not taken. -/
theorem fresh_notMem (taken : List String) (simpleName qualified : String) :
    fresh taken simpleName qualified ∉ taken := by
  simp only [fresh]
  -- the simple name is free, or the qualified one, or a number makes it so
  split
  · split
    · exact firstFree_notMem taken _ 2
    · assumption
  · assumption

/-- A type without a name is given a fresh one. -/
theorem request_of_none {table : NameTable} {c : Catalog} {t : TypeId}
    (h : table.name? t = none) :
    table.request c t =
      (fresh table.names (c.simpleName t) (c.name t),
        ⟨table.entries ++ [(t, fresh table.names (c.simpleName t) (c.name t))]⟩) := by
  rw [request, h]

/-- The types without a name are those that are not listed. -/
theorem name?_eq_none_iff {table : NameTable} {t : TypeId} :
    table.name? t = none ↔ t ∉ table.types := valueOf?_eq_none_iff

/-- Every name that is taken is the name of a type, if no type has two. -/
theorem exists_name?_of_mem_names {table : NameTable} {name : String} (hnodup : table.types.Nodup)
    (h : name ∈ table.names) : ∃ t ∈ table.types, table.name? t = some name := by
  obtain ⟨e, he, rfl⟩ := List.mem_map.mp h
  exact ⟨e.1, List.mem_map.mpr ⟨e, he, rfl⟩, valueOf?_of_mem hnodup he⟩

/-- Types with the same name are the same, if no name is given twice. -/
theorem eq_of_name?_eq {table : NameTable} {t u : TypeId} {name : String}
    (hnodup : table.names.Nodup) (ht : table.name? t = some name) (hu : table.name? u = some name) :
    t = u := by
  have h := List.inj_on_of_nodup_map hnodup (mem_of_valueOf? ht) (mem_of_valueOf? hu) rfl
  exact congrArg Prod.fst h

/-- A name that was given stays. -/
theorem name?_of_prefix {table table' : NameTable} {t : TypeId} {name : String}
    (hp : table.entries <+: table'.entries) (h : table.name? t = some name) :
    table'.name? t = some name :=
  valueOf?_of_prefix hp h

end Schemata.NameTable
