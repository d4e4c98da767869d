import Schemata.OrderedMap
import Schemata.Proofs.Lookup
import Mathlib.Data.Finset.Card
import Mathlib.Data.List.Basic
import Mathlib.Data.List.Induction

/-!
# Writing many names

A name that is written for the first time goes to the end.  So pairs with different names, written
into a map that has none of them, are listed as they come.  If names come again, the first write of
a name decides on its place and the last one on its value.

## Key results

- `entries_insert`: writing a new name
- `entries_foldl_insert`: writing many new names
- `pairwise_names_ofList` / `get?_ofList`: the places and the values of names that come again
- `ofList_follows_writes`: a map after any sequence of writes
-/

namespace Schemata.OrderedMap

variable {α : Type} {m : OrderedMap α} {writes : List (String × α)}

/-- A new name is written at the end. -/
theorem entries_insert {name : String} (value : α) (h : name ∉ m.names) :
    (m.insert name value).entries = m.entries ++ [(name, value)] := by
  obtain ⟨entries⟩ := m
  simp only [insert, exchange, names] at h ⊢
  -- on the entries, none of which has the name
  induction entries with
  | nil => rfl
  | cons p rest ih =>
    rw [List.map_cons, List.mem_cons, not_or] at h
    have hne : p.1 ≠ name := fun he => h.1 he.symm
    simp only [exchangeIn, if_neg hne, ih h.2, List.cons_append]

/-- New names are written at the end, one after the other. -/
theorem entries_foldl_insert {pairs : List (String × α)}
    (h : (m.names ++ pairs.map (·.1)).Nodup) :
    (pairs.foldl (fun m p => m.insert p.1 p.2) m).entries = m.entries ++ pairs := by
  -- on the pairs that are left, with the map that those before them were written to
  induction pairs generalizing m with
  | nil => exact (List.append_nil _).symm
  | cons p rest ih =>
    -- the first name is new, and then the others still are
    have hp : p.1 ∉ m.names := by
      intro hmem
      rw [List.map_cons] at h
      exact List.disjoint_of_nodup_append h hmem List.mem_cons_self
    have hnames : (m.insert p.1 p.2).names = m.names ++ [p.1] := by
      rw [names_insert, if_neg hp]
    rw [List.foldl_cons, ih, entries_insert p.2 hp, List.append_assoc]
    · rfl
    · rw [hnames, List.append_assoc]
      exact h

/-- A read finds the value of a pair. -/
theorem get?_of_mem {name : String} {value : α} (hnodup : m.names.Nodup)
    (h : (name, value) ∈ m.entries) : m.get? name = some value := valueOf?_of_mem hnodup h

/-! ## Names that come again -/

/-- The last write comes after all others. -/
private theorem ofList_concat (writes : List (String × α)) (name : String) (value : α) :
    ofList (writes ++ [(name, value)]) = (ofList writes).insert name value := by
  rw [ofList, List.foldl_append]
  rfl

/-- The names of a map are those that were written. -/
private theorem mem_names_ofList {name : String} :
    name ∈ (ofList writes).names ↔ name ∈ writes.map (·.1) := by
  -- on the writes from the last one back, here and below, as a map is written
  induction writes using List.reverseRecOn generalizing name with
  | nil => simp [ofList]
  | append_singleton writes last ih =>
    rw [ofList_concat, names_insert, List.map_append, List.mem_append]
    by_cases hold : last.1 ∈ (ofList writes).names
    · -- the last write was of a name that was there
      rw [if_pos hold, ih]
      constructor
      · exact .inl
      · rintro (h | h)
        · exact h
        · obtain rfl : name = last.1 := by simpa using h
          exact ih.mp hold
    · rw [if_neg hold, List.mem_append, ih]
      simp

/-- The names come in the order in which they were first written. -/
theorem pairwise_names_ofList (writes : List (String × α)) :
    (ofList writes).names.Pairwise fun a b =>
      (writes.map (·.1)).idxOf a < (writes.map (·.1)).idxOf b := by
  -- on the writes from the last one back; what was written keeps its first place
  induction writes using List.reverseRecOn with
  | nil => exact .nil
  | append_singleton writes last ih =>
    have hfirst : ∀ {name}, name ∈ (ofList writes).names →
        ((writes ++ [last]).map (·.1)).idxOf name = (writes.map (·.1)).idxOf name := by
      intro name hname
      rw [List.map_append, List.idxOf_append_of_mem (mem_names_ofList.mp hname)]
    have hold : (ofList writes).names.Pairwise fun a b =>
        ((writes ++ [last]).map (·.1)).idxOf a < ((writes ++ [last]).map (·.1)).idxOf b := by
      apply ih.imp_of_mem
      intro a b ha hb hlt
      rw [hfirst ha, hfirst hb]
      exact hlt
    rw [ofList_concat, names_insert]
    -- an old name stays where it is
    by_cases hmem : last.1 ∈ (ofList writes).names
    · rw [if_pos hmem]
      exact hold
    · -- a new name was first written at the end, behind all others
      rw [if_neg hmem, List.pairwise_append]
      refine ⟨hold, List.pairwise_singleton _ _, ?_⟩
      intro a ha b hb
      obtain rfl := List.mem_singleton.mp hb
      have hnew : last.1 ∉ writes.map (·.1) := fun h => hmem (mem_names_ofList.mpr h)
      have hlt := List.idxOf_lt_length_of_mem (mem_names_ofList.mp ha)
      rw [hfirst ha, List.map_append, List.idxOf_append_of_notMem hnew]
      omega

/-- So no name comes twice. -/
private theorem nodup_names_ofList (writes : List (String × α)) : (ofList writes).names.Nodup := by
  apply (pairwise_names_ofList writes).imp
  intro a b hlt he
  rw [he] at hlt
  omega

/-- A read finds what was written last. -/
theorem get?_ofList (writes : List (String × α)) (name : String) :
    (ofList writes).get? name = valueOf? writes.reverse name := by
  -- the last write comes first when the list is read backwards
  induction writes using List.reverseRecOn with
  | nil => rfl
  | append_singleton writes last ih =>
    rw [ofList_concat, get?_insert, ih, List.reverse_append]
    by_cases h : last.1 = name <;> simp [valueOf?, h]

/-- A read finds a value if it was written, and the name was not written again since. -/
private theorem get?_ofList_eq_some_iff {name : String} {value : α} :
    (ofList writes).get? name = some value ↔
      ∃ front back, writes = front ++ (name, value) :: back ∧ name ∉ back.map (·.1) := by
  rw [get?_ofList, valueOf?_eq_some_iff]
  -- what comes first from the back comes last from the front
  constructor
  · rintro ⟨back, front, hwrites, hback⟩
    refine ⟨front.reverse, back.reverse, ?_, by simpa using hback⟩
    rw [← List.reverse_reverse writes, hwrites]
    simp
  · rintro ⟨front, back, rfl, hback⟩
    exact ⟨back.reverse, front.reverse, by simp, by simpa using hback⟩

/-- The pairs of a map are its names, each with what a read finds. -/
private theorem entries_eq_names_map (h : m.names.Nodup) :
    m.entries.map (fun e => (e.1, some e.2)) = m.names.map fun name => (name, m.get? name) := by
  rw [names, List.map_map]
  apply List.map_congr_left
  intro e he
  show (e.1, some e.2) = (e.1, m.get? e.1)
  rw [get?_of_mem h he]

/-- A write does not move any other name. -/
private theorem idxOf?_names_insert {name other : String} (value : α) (h : other ≠ name) :
    (m.insert name value).names.idxOf? other = m.names.idxOf? other := by
  rw [names_insert]
  -- the name stays at its place, or comes behind all others
  by_cases hmem : name ∈ m.names
  · rw [if_pos hmem]
  · have hne : (name == other) = false := by simpa using fun he => h he.symm
    rw [if_neg hmem, List.idxOf?, List.findIdx?_append]
    simp [List.findIdx?_cons, hne]

/-- A map after any sequence of writes.  Its names are those that were written, once each and in the
order of their first writes; the value of a name is that of its last write, and a name that was not
written has none.  The pairs list the names with their values, and are as many as different names
were written.  A write hands back what a read would have found, and changes neither the value nor
the place of another name. -/
theorem ofList_follows_writes (writes : List (String × α)) :
    let m : OrderedMap α := ofList writes
    let written := writes.map (·.1)
    (m.names.Nodup ∧ (∀ name, name ∈ m.names ↔ name ∈ written) ∧
      m.names.Pairwise fun a b => written.idxOf a < written.idxOf b) ∧
    (∀ name value, m.get? name = some value ↔
      ∃ front back, writes = front ++ (name, value) :: back ∧ name ∉ back.map (·.1)) ∧
    (∀ name, m.get? name = none ↔ name ∉ written) ∧
    m.entries.map (fun e => (e.1, some e.2)) = m.names.map (fun name => (name, m.get? name)) ∧
    m.size = written.toFinset.card ∧
    ∀ name value, (m.exchange name value).1 = m.get? name ∧
      (m.exchange name value).2 = ofList (writes ++ [(name, value)]) ∧
      ∀ other, other ≠ name → (m.exchange name value).2.get? other = m.get? other ∧
        (m.exchange name value).2.names.idxOf? other = m.names.idxOf? other := by
  intro m written
  have hnodup : m.names.Nodup := nodup_names_ofList writes
  have hmem : ∀ name, name ∈ m.names ↔ name ∈ written := fun _ => mem_names_ofList
  refine ⟨⟨hnodup, hmem, pairwise_names_ofList writes⟩, fun _ _ => get?_ofList_eq_some_iff, ?_,
    entries_eq_names_map hnodup, ?_, ?_⟩
  · intro name
    rw [← hmem name]
    exact valueOf?_eq_none_iff
  -- the names are as many as different names were written, since none comes twice
  · have hset : m.names.toFinset = written.toFinset := by
      ext name
      rw [List.mem_toFinset, List.mem_toFinset, hmem]
    calc m.size = m.names.length := (List.length_map _).symm
      _ = m.names.toFinset.card := (List.toFinset_card_of_nodup hnodup).symm
      _ = written.toFinset.card := by rw [hset]
  · intro name value
    refine ⟨exchange_fst m name value, (ofList_concat writes name value).symm, ?_⟩
    intro other hother
    have hget := get?_insert m name other value
    rw [if_neg fun he => hother he.symm] at hget
    exact ⟨hget, idxOf?_names_insert value hother⟩

/-- A name that is written again has its last value, and the name that came between keeps its
own. -/
theorem ofList_follows_writes_again :
    let m := ofList [("first", 1), ("second", 2), ("first", 3)]
    m.names = ["first", "second"] ∧ m.get? "first" = some 3 ∧ m.get? "third" = none ∧ m.size = 2 ∧
      "second" ≠ "first" ∧ (m.exchange "first" 4).1 = some 3 ∧
      (m.exchange "first" 4).2.get? "second" = some 2 ∧
      (m.exchange "first" 4).2.names.idxOf? "second" = some 1 := by
  intro m
  obtain ⟨_, hvalue, hnone, _, hsize, hwrite⟩ :=
    ofList_follows_writes [("first", 1), ("second", 2), ("first", 3)]
  have hfirst : m.get? "first" = some 3 :=
    (hvalue "first" 3).mpr ⟨[("first", 1), ("second", 2)], [], rfl, by decide⟩
  have hne : "second" ≠ "first" := by decide
  obtain ⟨hback, _, hothers⟩ := hwrite "first" 4
  obtain ⟨hget, hplace⟩ := hothers "second" hne
  exact ⟨rfl, hfirst, (hnone "third").mpr (by decide), hsize, hne, hback.trans hfirst, hget,
    hplace⟩

end Schemata.OrderedMap
