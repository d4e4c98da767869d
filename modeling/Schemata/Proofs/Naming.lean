import Schemata.Proofs.ComponentName
import Schemata.Proofs.Catalog.Closed

/-!
# Names on request

A type is given a name when it is first asked for, and goes by that name ever after.  `Chosen` says
which name is given while others are taken, and `Answers` what the requests of a session are
answered, one after the other.  A table answers every request in this way.

## Key results

- `chosen_fresh`: a fresh name is the first choice that is free
- `Answers.name_eq_iff`: names tell types apart, whatever was asked for before
- `Answers.isReferable`: names are made of the characters that a reference may contain
- `Answered.request`: a table goes on to answer
-/

namespace Schemata

/-- A name may stand in a reference: it is made of letters, digits, dots, underscores and
hyphens. -/
def IsReferable (name : String) : Prop :=
  ∀ ch ∈ name.toList, ch.isAlphanum = true ∨ ch = '.' ∨ ch = '_' ∨ ch = '-'

/-- The characters that sanitizing lets pass. -/
private theorem isNameChar_iff {ch : Char} :
    isNameChar ch = true ↔ ch.isAlphanum = true ∨ ch = '.' ∨ ch = '_' ∨ ch = '-' := by
  unfold isNameChar Char.isAlphanum Char.isAlpha Char.isUpper Char.isLower Char.isDigit
  simp [Char.le_def, or_assoc]

/-- A sanitized name may stand in a reference. -/
private theorem isReferable_sanitizeName (s : String) : IsReferable (sanitizeName s) := by
  intro ch hch
  rw [sanitizeName, String.toList_ofList] at hch
  obtain ⟨raw, _, rfl⟩ := List.mem_map.mp hch
  -- what may not stand is now an underscore
  split
  · exact isNameChar_iff.mp ‹_›
  · simp

namespace NameTable

/-- So may a name with a number behind it. -/
private theorem isReferable_numbered {base : String} (h : IsReferable base) (n : Nat) :
    IsReferable (numbered base n) := by
  intro ch hch
  simp only [numbered, String.toList_append, List.mem_append] at hch
  -- the character is from the base, the underscore, or from the number
  rcases hch with (hch | hch) | hch
  · exact h ch hch
  · simp_all
  · rw [Nat.toString_eq_ofList_toDigits, String.toList_ofList] at hch
    have hdigit := Nat.isDigit_of_mem_toDigits (by omega) (by omega) hch
    left
    simp [Char.isAlphanum, hdigit]

/-! ## The first choice -/

/-- The name that is given while those in `taken` are: the short one if it is free, else the
qualified one, else the qualified one with the least number behind it, from two on, that makes it
free.  No number beyond `limit` is needed. -/
inductive Chosen (taken : List String) (limit : Nat) (simple qualified : String) :
    String → Prop where
  | simple (hfree : simple ∉ taken) : Chosen taken limit simple qualified simple
  | qualified (hsimple : simple ∈ taken) (hfree : qualified ∉ taken) :
      Chosen taken limit simple qualified qualified
  | numbered {n : Nat} (hsimple : simple ∈ taken) (hqualified : qualified ∈ taken) (htwo : 2 ≤ n)
      (hlimit : n ≤ limit) (hfree : numbered qualified n ∉ taken)
      (hleast : ∀ k, 2 ≤ k → k < n → NameTable.numbered qualified k ∈ taken) :
      Chosen taken limit simple qualified (numbered qualified n)

namespace Chosen

variable {taken taken' : List String} {limit limit' : Nat} {simple qualified name : String}

/-- The name that is given is free. -/
private theorem notMem (h : Chosen taken limit simple qualified name) : name ∉ taken := by
  cases h <;> assumption

/-- The name that is given may stand in a reference, if both names may. -/
private theorem isReferable (h : Chosen taken limit simple qualified name)
    (hsimple : IsReferable simple) (hqualified : IsReferable qualified) : IsReferable name := by
  cases h with
  | simple => exact hsimple
  | qualified => exact hqualified
  | numbered => exact isReferable_numbered hqualified _

/-- Only which names are taken counts, and a higher limit does not matter. -/
private theorem congr (h : Chosen taken limit simple qualified name)
    (hmem : ∀ other, other ∈ taken ↔ other ∈ taken') (hle : limit ≤ limit') :
    Chosen taken' limit' simple qualified name := by
  cases h with
  | simple hfree => exact .simple (by rwa [← hmem])
  | qualified hsimple hfree => exact .qualified ((hmem _).mp hsimple) (by rwa [← hmem])
  | numbered hsimple hqualified htwo hlimit hfree hleast =>
    exact .numbered ((hmem _).mp hsimple) ((hmem _).mp hqualified) htwo (by omega)
      (by rwa [← hmem]) fun k hk hlt => (hmem _).mp (hleast k hk hlt)

end Chosen

/-- The search for a free name tries one number after the other. -/
private theorem exists_firstFree_eq (taken : List String) (base : String) (tries n : Nat) :
    ∃ k, firstFree taken base tries n = numbered base k ∧ n ≤ k ∧ k ≤ n + tries ∧
      ∀ j, n ≤ j → j < k → numbered base j ∈ taken := by
  -- on the tries that are left, each of which has the next number
  induction tries generalizing n with
  | zero => exact ⟨n, rfl, by omega, by omega, fun j hj hlt => by omega⟩
  | succ tries ih =>
    rw [firstFree]
    split
    · -- `n` itself is taken, and so is what the rest of the search passes over
      rename_i htaken
      obtain ⟨k, heq, hle, hbound, hpassed⟩ := ih (n + 1)
      refine ⟨k, heq, by omega, by omega, fun j hj hlt => ?_⟩
      by_cases hjn : j = n
      · rwa [hjn]
      · exact hpassed j (by omega) hlt
    · exact ⟨n, rfl, by omega, by omega, fun j hj hlt => by omega⟩

/-- A fresh name is the first choice that is free. -/
theorem chosen_fresh (taken : List String) (simpleName qualified : String) :
    Chosen taken (taken.length + 2) (sanitizeName simpleName) (sanitizeName qualified)
      (fresh taken simpleName qualified) := by
  simp only [fresh]
  split
  -- the short name is taken or free, and then the qualified one
  · rename_i hsimple
    split
    · rename_i hqualified
      obtain ⟨k, heq, htwo, hlimit, hleast⟩ :=
        exists_firstFree_eq taken (sanitizeName qualified) taken.length 2
      have hfree := firstFree_notMem taken (sanitizeName qualified) 2
      rw [heq] at hfree ⊢
      exact .numbered hsimple hqualified htwo (by omega) hfree hleast
    · rename_i hfree
      exact .qualified hsimple hfree
  · rename_i hfree
    exact .simple hfree

/-! ## Requests and their answers -/

/-- Requests for the names of types, with what they are answered: the same again for a type that has
a name, and for any other type its first choice among the names that no type has. -/
inductive Answers (c : Catalog) : List (TypeId × String) → Prop where
  | nil : Answers c []
  | again {asked t name} (h : Answers c asked) (hold : (t, name) ∈ asked) :
      Answers c (asked ++ [(t, name)])
  | first {asked t name} (h : Answers c asked) (hnew : t ∉ asked.map (·.1))
      (hname : Chosen (asked.map (·.2)) (c.size + 1) (sanitizeName (c.simpleName t))
        (sanitizeName (c.name t)) name) :
      Answers c (asked ++ [(t, name)])

namespace Answers

variable {c : Catalog} {asked : List (TypeId × String)}

/-- Two requests are answered alike exactly if they are for the same type. -/
theorem name_eq_iff (h : Answers c asked) :
    ∀ r ∈ asked, ∀ r' ∈ asked, r.2 = r'.2 ↔ r.1 = r'.1 := by
  -- on the requests, up to the last one
  induction h with
  | nil => exact fun r hr => nomatch hr
  | @again asked t name _ hold ih =>
    -- nothing is answered that was not answered before
    have hmem : ∀ r ∈ asked ++ [(t, name)], r ∈ asked := by
      intro r hr
      rcases List.mem_append.mp hr with hr | hr
      · exact hr
      · rwa [List.mem_singleton.mp hr]
    exact fun r hr r' hr' => ih r (hmem r hr) r' (hmem r' hr')
  | @first asked t name _ hnew hname ih =>
    -- neither the type nor the name comes among the earlier ones
    have hdiffer : ∀ r ∈ asked, r.2 ≠ name ∧ r.1 ≠ t := by
      intro r hr
      refine ⟨fun he => hname.notMem ?_, fun he => hnew ?_⟩
      · exact he ▸ List.mem_map_of_mem hr
      · exact he ▸ List.mem_map_of_mem hr
    intro r hr r' hr'
    -- the last request differs from all earlier ones, in its type and in its name
    rcases List.mem_append.mp hr with hr | hr <;> rcases List.mem_append.mp hr' with hr' | hr'
    · exact ih r hr r' hr'
    · rw [List.mem_singleton.mp hr']
      simp [hdiffer r hr]
    · rw [List.mem_singleton.mp hr]
      simp [(hdiffer r' hr').1.symm, (hdiffer r' hr').2.symm]
    · rw [List.mem_singleton.mp hr, List.mem_singleton.mp hr']
      simp

/-- All answers may stand in a reference. -/
theorem isReferable (h : Answers c asked) : ∀ r ∈ asked, IsReferable r.2 := by
  -- on the requests; an answer that comes again was given before
  induction h with
  | nil => exact fun r hr => nomatch hr
  | again _ hold ih =>
    intro r hr
    rcases List.mem_append.mp hr with hr | hr
    · exact ih r hr
    · rw [List.mem_singleton.mp hr]
      exact ih _ hold
  | first _ _ hname ih =>
    intro r hr
    rcases List.mem_append.mp hr with hr | hr
    · exact ih r hr
    · rw [List.mem_singleton.mp hr]
      exact hname.isReferable (isReferable_sanitizeName _) (isReferable_sanitizeName _)

end Answers

/-- A table has answered requests, and knows of no other names than those that it has answered. -/
structure Answered (c : Catalog) (asked : List (TypeId × String)) (table : NameTable) : Prop where
  answers : Answers c asked
  mem_iff : ∀ r, r ∈ table.entries ↔ r ∈ asked
  types_nodup : table.types.Nodup
  has : ∀ t ∈ table.types, c.Has t

namespace Answered

variable {c : Catalog} {asked : List (TypeId × String)} {table : NameTable} {t : TypeId}

/-- An empty table has answered nothing. -/
theorem empty (c : Catalog) : Answered c [] {} where
  answers := .nil
  mem_iff _ := Iff.rfl
  types_nodup := List.nodup_nil
  has _ h := nomatch h

/-- The types with a name are those that were asked for. -/
private theorem mem_types_iff (h : Answered c asked table) :
    t ∈ table.types ↔ t ∈ asked.map (·.1) := by
  simp only [types, List.mem_map, h.mem_iff]

/-- The names that are taken are those that were answered. -/
private theorem mem_names_iff (h : Answered c asked table) {name : String} :
    name ∈ table.names ↔ name ∈ asked.map (·.2) := by
  simp only [names, List.mem_map, h.mem_iff]

/-- Fewer names are taken than there are types, as long as some type has none. -/
private theorem length_names_lt (h : Answered c asked table) (ht : c.Has t)
    (hnew : t ∉ table.types) : table.names.length < c.size := by
  -- the types with a name and one more are different types of the catalog
  have hnodup : (t :: table.types).Nodup := List.nodup_cons.mpr ⟨hnew, h.types_nodup⟩
  have hsub : t :: table.types ⊆ c.ids :=
    List.cons_subset.mpr ⟨Catalog.mem_ids ht, fun u hu => Catalog.mem_ids (h.has u hu)⟩
  have hle := hnodup.length_le_of_subset hsub
  simp only [types, names, Catalog.ids, List.length_cons, List.length_map,
    List.length_range] at hle ⊢
  omega

/-- A table answers one request more, for any type of the catalog. -/
theorem request (h : Answered c asked table) (ht : c.Has t) :
    Answered c (asked ++ [(t, (table.request c t).1)]) (table.request c t).2 := by
  cases hname : table.name? t with
  | some name =>
    -- the table stays as it is
    have hrequest : table.request c t = (name, table) := by rw [NameTable.request, hname]
    have hold : (t, name) ∈ asked := (h.mem_iff _).mp (mem_of_valueOf? hname)
    rw [hrequest]
    refine ⟨h.answers.again hold, fun r => ?_, h.types_nodup, h.has⟩
    rw [h.mem_iff, List.mem_append, List.mem_singleton]
    exact ⟨.inl, fun hr => hr.elim id fun he => he ▸ hold⟩
  | none =>
    have hnew : t ∉ table.types := name?_eq_none_iff.mp hname
    have hlt := h.length_names_lt ht hnew
    -- what is taken in the table has been answered
    have hchosen := (chosen_fresh table.names (c.simpleName t) (c.name t)).congr
      (fun _ => h.mem_names_iff) (show _ ≤ c.size + 1 by omega)
    rw [request_of_none hname]
    -- the type comes behind those that have names, in the table and among the requests
    refine ⟨h.answers.first (mt h.mem_types_iff.mpr hnew) hchosen, fun r => ?_, ?_, fun u hu => ?_⟩
    · simp only [List.mem_append, h.mem_iff]
    · simp only [types, List.map_append, List.map_cons, List.map_nil]
      exact h.types_nodup.append (List.nodup_singleton t) (by simpa [types] using hnew)
    · simp only [types, List.map_append, List.map_cons, List.map_nil, List.mem_append,
        List.mem_singleton] at hu
      rcases hu with hu | rfl
      · exact h.has u hu
      · exact ht

end Answered

end NameTable

end Schemata
