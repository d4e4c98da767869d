import Schemata.Catalog.Resolve
import Mathlib.Data.List.Chain
import Mathlib.Data.List.Nodup

/-!
# Chains that come to an end

`Catalog.ends` says that following `next` from a type comes to an end within a number of steps, and
`Catalog.chain` lists the types on the way.  A chain that ends visits no type twice, so it has no
more steps than there are types with a successor.

## Key results

- `chain_of_some` / `chain_of_none`: one step of a chain, for any bound within which it ends
- `chain_nodup`: a chain that ends visits no type twice
- `chain_length_le`: the length of a chain, bounded by the types that have a successor
- `followsToEnd_chain`: a chain that ends is all that there is to follow
- `prefix_chain`: a path follows the chain of its first type
-/

namespace Schemata.Catalog

variable {next : TypeId → Option TypeId}

/-! ## One step of a chain -/

/-- The chain of a type without a successor is the type alone. -/
theorem chain_of_none {t : TypeId} (n : Nat) (h : next t = none) : chain next n t = [t] := by
  cases n with
  | zero => rfl
  | succ n => simp only [chain, h]

/-- The chain of a type without a successor ends within any bound. -/
theorem ends_of_none {t : TypeId} (n : Nat) (h : next t = none) : ends next n t = true := by
  cases n with
  | zero => rw [ends, h]; rfl
  | succ n => rw [ends, h]

/-- Within no steps ends only what has no successor. -/
private theorem next_eq_none_of_ends_zero {t : TypeId} (h : ends next 0 t = true) :
    next t = none := by
  simpa [ends] using h

/-- A chain that ends within one step more leaves the bound to its rest. -/
private theorem ends_of_ends_succ {n : Nat} {t u : TypeId} (h : ends next (n + 1) t = true)
    (hu : next t = some u) : ends next n u = true := by
  simpa only [ends, hu] using h

/-- A chain that ends does so within a larger bound. -/
private theorem ends_succ {n : Nat} {t : TypeId} (h : ends next n t = true) :
    ends next (n + 1) t = true := by
  -- on the bound; the rest of the chain ends within one step less
  induction n generalizing t with
  | zero => simp only [ends, next_eq_none_of_ends_zero h]
  | succ n ih =>
    cases hu : next t with
    | none => simp only [ends, hu]
    | some u =>
      rw [ends, hu]
      exact ih (ends_of_ends_succ h hu)

/-- The rest of a chain ends within the bound of the whole. -/
theorem ends_next {n : Nat} {t u : TypeId} (h : ends next n t = true) (hu : next t = some u) :
    ends next n u = true := by
  cases n with
  | zero => rw [next_eq_none_of_ends_zero h] at hu; cases hu
  | succ n => exact ends_succ (ends_of_ends_succ h hu)

/-- More steps than a chain needs do not change it. -/
private theorem chain_succ {n : Nat} {t : TypeId} (h : ends next n t = true) :
    chain next (n + 1) t = chain next n t := by
  -- on the bound, which is one less for the rest of the chain
  induction n generalizing t with
  | zero =>
    have ht := next_eq_none_of_ends_zero h
    rw [chain_of_none 1 ht, chain_of_none 0 ht]
  | succ n ih =>
    cases hu : next t with
    | none => rw [chain_of_none _ hu, chain_of_none _ hu]
    | some u =>
      have hrest := ih (ends_of_ends_succ h hu)
      simp only [chain, hu] at hrest ⊢
      rw [hrest]

/-- A chain that ends is its first type followed by the chain of its successor. -/
theorem chain_of_some {n : Nat} {t u : TypeId} (h : ends next n t = true) (hu : next t = some u) :
    chain next n t = t :: chain next n u := by
  cases n with
  | zero => rw [next_eq_none_of_ends_zero h] at hu; cases hu
  | succ n =>
    rw [chain_succ (ends_of_ends_succ h hu)]
    simp only [chain, hu]

/-- A chain contains its first type at least. -/
theorem chain_ne_nil (n : Nat) (t : TypeId) : chain next n t ≠ [] := by
  cases n with
  | zero => exact List.cons_ne_nil _ _
  | succ n => simp only [chain]; split <;> exact List.cons_ne_nil _ _

/-- What holds of types without a successor, and of a type whenever it holds of its successor, holds
of all types whose chain ends. -/
theorem chain_induction {n : Nat} {motive : TypeId → Prop}
    (last : ∀ t, next t = none → motive t)
    (more : ∀ t u, ends next n t = true → next t = some u → motive u → motive t)
    {t : TypeId} (h : ends next n t = true) : motive t := by
  -- the chain gets shorter, while the bound stays the same
  induction hl : (chain next n t).length generalizing t with
  | zero => exact absurd (List.length_eq_zero_iff.mp hl) (chain_ne_nil n t)
  | succ l ih =>
    cases hu : next t with
    | none => exact last t hu
    | some u =>
      rw [chain_of_some h hu, List.length_cons] at hl
      exact more t u h hu (ih (ends_next h hu) (by omega))

/-! ## Chains visit no type twice -/

/-- From a type that a chain visits, the chain is no longer than from its first type. -/
private theorem chain_length_le_of_mem {n : Nat} {t u : TypeId} (h : ends next n t = true)
    (hu : u ∈ chain next n t) : (chain next n u).length ≤ (chain next n t).length := by
  -- `u` stays the same while the chain gets shorter, so its membership goes into the motive
  revert hu
  refine chain_induction (motive := fun t => u ∈ chain next n t →
    (chain next n u).length ≤ (chain next n t).length) ?_ ?_ h
  -- the last type is the only one on its chain
  · intro t ht hu
    rw [chain_of_none n ht, List.mem_singleton] at hu
    exact Nat.le_of_eq (by rw [hu])
  -- `u` is the first type of the chain, or on the rest of it
  · intro t s h hs ih hu
    rw [chain_of_some h hs, List.mem_cons] at hu
    rcases hu with rfl | hu
    · exact Nat.le_refl _
    · rw [chain_of_some h hs, List.length_cons]
      exact Nat.le_succ_of_le (ih hu)

/-- A chain that ends visits no type twice. -/
theorem chain_nodup {n : Nat} {t : TypeId} (h : ends next n t = true) : (chain next n t).Nodup := by
  refine chain_induction (motive := fun t => (chain next n t).Nodup) ?_ ?_ h
  · intro t ht
    rw [chain_of_none n ht]
    exact List.nodup_singleton t
  · intro t s h hs ih
    have hc := chain_of_some h hs
    rw [hc, List.nodup_cons]
    refine ⟨fun hmem => ?_, ih⟩
    -- the chain of `t` would be no longer than its own rest
    have hle := chain_length_le_of_mem (ends_next h hs) hmem
    rw [hc, List.length_cons] at hle
    omega

/-- Every type of a chain but the last has a successor. -/
private theorem isSome_next_of_mem_dropLast {n : Nat} {t u : TypeId} (h : ends next n t = true)
    (hu : u ∈ (chain next n t).dropLast) : (next u).isSome := by
  revert hu
  refine chain_induction (motive := fun t => u ∈ (chain next n t).dropLast → (next u).isSome)
    ?_ ?_ h
  -- a chain of one type has none that is not the last
  · intro t ht hu
    rw [chain_of_none n ht] at hu
    cases hu
  · intro t s h hs ih hu
    rw [chain_of_some h hs, List.dropLast_cons_of_ne_nil (chain_ne_nil n s), List.mem_cons] at hu
    rcases hu with rfl | hu
    · rw [hs]; rfl
    · exact ih hu

/-- A chain that ends is at most one longer than any list of the types that have a successor. -/
theorem chain_length_le {n : Nat} {t : TypeId} {l : List TypeId} (h : ends next n t = true)
    (hl : ∀ u, (next u).isSome → u ∈ l) : (chain next n t).length ≤ l.length + 1 := by
  -- all types but the last have successors, and no two of them are the same
  have hsub : (chain next n t).dropLast ⊆ l :=
    fun u hu => hl u (isSome_next_of_mem_dropLast h hu)
  have hnodup := (chain_nodup h).sublist (List.dropLast_sublist _)
  have hle := hnodup.length_le_of_subset hsub
  rw [List.length_dropLast] at hle
  omega

/-- A chain that ends does so within any bound that it is not longer than. -/
theorem ends_of_length_le {n m : Nat} {t : TypeId} (h : ends next n t = true)
    (hm : (chain next n t).length ≤ m + 1) : ends next m t = true := by
  revert m
  refine chain_induction (motive := fun t => ∀ {m}, (chain next n t).length ≤ m + 1 →
    ends next m t = true) ?_ ?_ h
  · intro t ht m _
    exact ends_of_none m ht
  -- the rest is one shorter, and within one step less
  · intro t u h hu ih m hm
    rw [chain_of_some h hu, List.length_cons] at hm
    have hpos : 0 < (chain next n u).length := List.length_pos_iff.mpr (chain_ne_nil n u)
    obtain ⟨m, rfl⟩ : ∃ k, m = k + 1 := ⟨m - 1, by omega⟩
    rw [ends, hu]
    exact ih (by omega)

/-! ## Chains as paths -/

/-- A list follows `next` from `t` to the end: every entry but the first is the successor of the one
before, the last has none, and no type comes twice. -/
structure FollowsToEnd (next : TypeId → Option TypeId) (t : TypeId) (l : List TypeId) : Prop where
  head : l.head? = some t
  step : l.IsChain fun a b => next a = some b
  last : ∀ u ∈ l.getLast?, next u = none
  nodup : l.Nodup

variable {n : Nat} {t u : TypeId}

/-- A chain starts with its first type. -/
private theorem head?_chain (next : TypeId → Option TypeId) (n : Nat) (t : TypeId) :
    (chain next n t).head? = some t := by
  cases n with
  | zero => rfl
  | succ n => simp only [chain]; split <;> rfl

/-- A chain is a path, whether it ends within the bound or is cut off. -/
theorem isChain_chain (next : TypeId → Option TypeId) (n : Nat) (t : TypeId) :
    (chain next n t).IsChain fun a b => next a = some b := by
  induction n generalizing t with
  -- on the bound; at zero the chain is cut off and has one entry
  | zero => exact List.isChain_singleton t
  | succ n ih =>
    cases hu : next t with
    | none =>
      rw [chain_of_none _ hu]
      exact List.isChain_singleton t
    | some u =>
      simp only [chain, hu]
      -- the first entry of the rest is the successor of `t`
      refine List.isChain_cons.mpr ⟨fun v hv => ?_, ih u⟩
      rw [head?_chain, Option.mem_some_iff] at hv
      rw [hu, hv]

/-- The last type of a chain that ends has no successor. -/
private theorem next_getLast?_chain (h : ends next n t = true) :
    ∀ u ∈ (chain next n t).getLast?, next u = none := by
  refine chain_induction (motive := fun t => ∀ u ∈ (chain next n t).getLast?, next u = none) ?_ ?_ h
  · intro t ht u hu
    rw [chain_of_none n ht, List.getLast?_singleton, Option.mem_some_iff] at hu
    rwa [← hu]
  -- the last entry of the chain is that of its rest
  · intro t s h hs ih u hu
    rw [chain_of_some h hs, List.getLast?_cons_of_ne_nil (chain_ne_nil n s)] at hu
    exact ih u hu

/-- A chain that ends is all that there is to follow. -/
theorem followsToEnd_chain (h : ends next n t = true) : FollowsToEnd next t (chain next n t) where
  head := head?_chain next n t
  step := isChain_chain next n t
  last := next_getLast?_chain h
  nodup := chain_nodup h

/-- A chain that does not end within the bound is as long as the bound allows. -/
theorem length_chain_of_not_ends (h : ends next n t = false) : (chain next n t).length = n + 1 := by
  induction n generalizing t with
  | zero => rfl
  -- the chain goes on, since it would have ended otherwise
  | succ n ih =>
    cases hu : next t with
    | none =>
      rw [ends, hu] at h
      cases h
    | some u =>
      simp only [ends, hu] at h
      simp only [chain, hu, List.length_cons, ih h]

/-- What holds of a type, and of the successor of whatever it holds of, holds along a chain. -/
theorem forall_mem_chain {P : TypeId → Prop} (ht : P t)
    (hnext : ∀ {a b}, P a → next a = some b → P b) (n : Nat) : ∀ u ∈ chain next n t, P u := by
  -- on the bound; the successor has the property, and one step is used up
  induction n generalizing t with
  | zero =>
    intro u hu
    rwa [List.mem_singleton.mp hu]
  | succ n ih =>
    intro u hu
    cases hs : next t with
    | none =>
      rw [chain_of_none _ hs, List.mem_singleton] at hu
      rwa [hu]
    | some s =>
      simp only [chain, hs, List.mem_cons] at hu
      rcases hu with rfl | hu
      · exact ht
      · exact ih (hnext ht hs) u hu

/-- A path follows the chain of its first type. -/
theorem prefix_chain (h : ∀ t, ends next n t = true) {path : List TypeId}
    (hpath : (t :: path).IsChain fun a b => next a = some b) : t :: path <+: chain next n t := by
  -- on the path, for every first type
  induction path generalizing t with
  | nil =>
    obtain ⟨rest, hrest⟩ := List.head?_eq_some_iff.mp (head?_chain next n t)
    exact ⟨rest, hrest.symm⟩
  | cons u rest ih =>
    obtain ⟨hu, hrest⟩ := List.isChain_cons_cons.mp hpath
    rw [chain_of_some (h t) hu]
    exact List.cons_prefix_cons.mpr ⟨rfl, ih hrest⟩

end Schemata.Catalog
