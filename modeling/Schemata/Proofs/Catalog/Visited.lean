import Mathlib.Data.Finset.Card
import Schemata.Proofs.Catalog.Closed

/-!
# Chains with a memory

A chain of references can be followed without counting steps: whoever follows it remembers the types
that were met, and stops when a type is met again.  That comes to an end, since a catalog has
finitely many types, and finds exactly the chains that `Catalog.ends` finds by counting.

## Key results

- `comesToEnd_of_ends` / `exists_ends_of_comesToEnd`: a chain comes to an end exactly if it meets no
  type again
- `checkVisits_eq`: remembering types and counting steps refuse the same catalogs, for the same type
-/

namespace Schemata.Catalog

variable {c : Catalog} {get : TypeDef → Option TypeId} {seen : Finset TypeId} {t u : TypeId}

/-- The types of a catalog that were not met yet. -/
def unseen (c : Catalog) (seen : Finset TypeId) : Finset TypeId := c.ids.toFinset \ seen

/-- A type of the catalog that is met for the first time leaves fewer that were not met. -/
private theorem card_unseen_insert_lt (hu : c.Has u) (hnew : u ∉ seen) :
    (c.unseen (insert u seen)).card < (c.unseen seen).card := by
  apply Finset.card_lt_card
  rw [unseen, Finset.sdiff_insert]
  exact Finset.erase_ssubset (Finset.mem_sdiff.mpr ⟨List.mem_toFinset.mpr (mem_ids hu), hnew⟩)

/-- Whether following references from a type comes to an end before a type is met again, where
`seen` are the types that were met before it. -/
def comesToEnd (c : Catalog) (get : TypeDef → Option TypeId) (seen : Finset TypeId) :
    Option TypeId → Bool
  | none => true
  | some u =>
    if _ : u ∈ seen then false
    else
      match _ : c.get? u with
      | none => true
      | some d => comesToEnd c get (insert u seen) (get d)
termination_by (c.unseen seen).card
decreasing_by exact card_unseen_insert_lt (has_of_get? ‹_›) ‹_›

/-- Follows references from some types, one after the other, up to one from where a type is met
again. -/
def checkVisits (c : Catalog) (get : TypeDef → Option TypeId) (error : String → CatalogError) :
    List TypeId → Except CatalogError Unit
  | [] => .ok ()
  | t :: rest =>
    if c.comesToEnd get {t} ((c.get? t).bind get) then checkVisits c get error rest
    else .error (error (c.name t))

/-! ## Steps -/

@[simp] theorem comesToEnd_none : c.comesToEnd get seen none = true := by
  rw [comesToEnd]

/-- A type that is new is left for the one that it refers to. -/
private theorem comesToEnd_of_notMem (h : u ∉ seen) :
    c.comesToEnd get seen (some u) = c.comesToEnd get (insert u seen) ((c.get? u).bind get) := by
  rw [comesToEnd, dif_neg h]
  split
  · rename_i hnone
    rw [hnone, Option.bind_none, comesToEnd_none]
  · rename_i d hd
    rw [hd, Option.bind_some]

/-! ## Both ways to follow a chain -/

/-- A chain that ends after some number of steps ends within as many steps as there are types. -/
private theorem ends_size {n : Nat} (h : ends (fun t => (c.get? t).bind get) n t = true) :
    ends (fun t => (c.get? t).bind get) c.size t = true := by
  -- types outside the catalog have no successor
  have hids : ∀ u, ((c.get? u).bind get).isSome → u ∈ c.ids := by
    intro u hu
    obtain ⟨v, hv⟩ := Option.isSome_iff_exists.mp hu
    obtain ⟨d, hd, _⟩ := Option.bind_eq_some_iff.mp hv
    exact mem_ids (has_of_get? hd)
  have hlength := chain_length_le h hids
  rw [ids, List.length_map, List.length_range] at hlength
  exact ends_of_length_le h hlength

/-- A chain that comes to an end by meeting only types that are new ends. -/
theorem exists_ends_of_comesToEnd {o : Option TypeId} (h : c.comesToEnd get seen o = true) :
    ∀ u ∈ o, ∃ n, ends (fun t => (c.get? t).bind get) n u = true := by
  -- on the calls of the loop, each of which has met one type more
  fun_induction comesToEnd c get seen o with
  | case1 => exact fun _ hu => nomatch hu
  | case2 => cases h
  | case3 seen u hu hnone =>
    intro v hv
    cases hv
    exact ⟨0, by simp [ends, hnone]⟩
  | case4 seen u hu d hd ih =>
    intro v hv
    cases hv
    have hnext : (c.get? u).bind get = get d := by rw [hd, Option.bind_some]
    cases hget : get d with
    | none => exact ⟨0, by simp [ends, hnext, hget]⟩
    | some w =>
      obtain ⟨n, hn⟩ := ih h w hget
      exact ⟨n + 1, by simp [ends, hnext, hget, hn]⟩

/-- A chain that ends comes to an end if it meets no type that was met before it. -/
theorem comesToEnd_of_ends {n : Nat} (h : ends (fun t => (c.get? t).bind get) n t = true)
    (hnew : ∀ u ∈ chain (fun t => (c.get? t).bind get) n t, u ∉ seen) :
    c.comesToEnd get seen (some t) = true := by
  revert seen
  refine chain_induction (motive := fun t => ∀ {seen : Finset TypeId},
    (∀ u ∈ chain (fun t => (c.get? t).bind get) n t, u ∉ seen) →
      c.comesToEnd get seen (some t) = true) ?_ ?_ h
  -- the last type is new, and nothing follows it
  · intro t ht seen hnew
    rw [chain_of_none n ht] at hnew
    rw [comesToEnd_of_notMem (hnew t (List.mem_singleton_self t)), ht, comesToEnd_none]
  -- the first type is new, and is remembered for the rest
  · intro t u h hu ih seen hnew
    have hchain := chain_of_some h hu
    rw [hchain, List.forall_mem_cons] at hnew
    rw [comesToEnd_of_notMem hnew.1, hu]
    refine ih fun v hv => ?_
    -- the chain does not come back to its first type, which is met now
    have hnodup := chain_nodup h
    rw [hchain, List.nodup_cons] at hnodup
    rw [Finset.mem_insert, not_or]
    exact ⟨fun he => hnodup.1 (he ▸ hv), hnew.2 v hv⟩

/-- Remembering the types that were met and counting steps find the same chains. -/
private theorem comesToEnd_eq_ends (c : Catalog) (get : TypeDef → Option TypeId) (t : TypeId) :
    c.comesToEnd get {t} ((c.get? t).bind get) =
      ends (fun t => (c.get? t).bind get) c.size t := by
  cases hu : (c.get? t).bind get with
  | none => rw [comesToEnd_none, ends_of_none _ hu]
  | some u =>
    rw [Bool.eq_iff_iff]
    constructor
    -- the successor ends by itself, and the type is one step before it
    · intro h
      obtain ⟨n, hn⟩ := exists_ends_of_comesToEnd h u rfl
      exact ends_size (n := n + 1) (by simp [ends, hu, hn])
    -- the chain starts with the type, and does not come back to it
    · intro h
      have hnodup := chain_nodup h
      rw [chain_of_some h hu, List.nodup_cons] at hnodup
      refine comesToEnd_of_ends (ends_next h hu) fun v hv => ?_
      rw [Finset.mem_singleton]
      exact fun he => hnodup.1 (he ▸ hv)

/-- The check that remembers types refuses the catalogs that the check of steps refuses, with the
same error. -/
theorem checkVisits_eq (c : Catalog) (get : TypeDef → Option TypeId)
    (error : String → CatalogError) :
    c.checkVisits get error c.ids = checkChains c (fun t => (c.get? t).bind get) error := by
  rw [checkChains]
  -- on the types that remain to be checked
  induction c.ids with
  | nil => rfl
  | cons t rest ih =>
    rw [checkVisits, comesToEnd_eq_ends]
    cases hends : ends (fun t => (c.get? t).bind get) c.size t with
    | true =>
      rw [if_pos rfl, ih, List.find?_cons_of_neg (by rw [hends]; decide)]
    | false =>
      rw [if_neg (by decide), List.find?_cons_of_pos (by rw [hends]; decide)]

end Schemata.Catalog
