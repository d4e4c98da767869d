import Schemata.Proofs.Catalog.Chain
import Mathlib.Data.List.Forall2

/-!
# Catalogs without dangling handles

Every handle that a resolved catalog stores belongs to the catalog, and every chain of superclasses
or of elements comes to an end.  These are the facts that a walk relies on, so that it need not
check handles itself.

## Key results

- `Catalog.closed_of_ofDecls`: a list of declarations that resolves gives a closed catalog
- `Closed.elementSteps_of_some`: the number of element steps below a container
- `Closed.elementSteps_le`: that number, bounded by the containers of the catalog
-/

namespace Schemata

/-! ## Computations that succeed -/

section Computations

variable {α β ε : Type}

/-- A computation in two parts succeeds if both do, the second with what the first has come to. -/
theorem bind_eq_ok {x : Except ε α} {f : α → Except ε β} {b : β} :
    x >>= f = .ok b ↔ ∃ a, x = .ok a ∧ f a = .ok b := by
  cases x with
  | error e => exact ⟨fun h => (nomatch h), fun ⟨_, h, _⟩ => (nomatch h)⟩
  | ok a => exact ⟨fun h => ⟨a, rfl, h⟩, fun ⟨_, h, hf⟩ => by cases h; exact hf⟩

/-- Changing what a computation comes to does not change whether it succeeds. -/
theorem map_eq_ok {x : Except ε α} {f : α → β} {b : β} :
    f <$> x = .ok b ↔ ∃ a, x = .ok a ∧ f a = b := by
  cases x with
  | error e => exact ⟨fun h => (nomatch h), fun ⟨_, h, _⟩ => (nomatch h)⟩
  | ok a =>
    exact ⟨fun h => ⟨a, rfl, Except.ok.inj h⟩, fun ⟨_, h, hf⟩ => by cases h; exact congrArg _ hf⟩

/-- A successful traversal relates every item to its result. -/
theorem forall₂_of_mapM_eq_ok {f : α → Except ε β} {xs : List α} {ys : List β}
    (h : xs.mapM f = .ok ys) : List.Forall₂ (fun x y => f x = .ok y) xs ys := by
  -- on the list; the head is computed first and then the tail
  induction xs generalizing ys with
  | nil =>
    rw [List.mapM_nil] at h
    cases h
    exact .nil
  | cons x xs ih =>
    rw [List.mapM_cons] at h
    obtain ⟨y, hy, h⟩ := bind_eq_ok.mp h
    obtain ⟨rest, hrest, h⟩ := bind_eq_ok.mp h
    cases h
    exact .cons hy (ih hrest)

/-- Two computations in a row succeed if the first does and the second does after it. -/
theorem bind_isOk_iff {x : Except ε α} {f : α → Except ε β} :
    (∃ b, x >>= f = .ok b) ↔ ∃ a, x = .ok a ∧ ∃ b, f a = .ok b := by
  simp only [bind_eq_ok]
  exact ⟨fun ⟨b, a, hx, hf⟩ => ⟨a, hx, b, hf⟩, fun ⟨a, hx, b, hf⟩ => ⟨b, a, hx, hf⟩⟩

/-- A computation succeeds if it does so before its result is changed. -/
theorem map_isOk_iff {x : Except ε α} {f : α → β} : (∃ b, f <$> x = .ok b) ↔ ∃ a, x = .ok a := by
  simp only [map_eq_ok]
  exact ⟨fun ⟨_, a, hx, _⟩ => ⟨a, hx⟩, fun ⟨a, hx⟩ => ⟨f a, a, hx, rfl⟩⟩

/-- A traversal succeeds if it does so for every item. -/
theorem mapM_isOk_iff {f : α → Except ε β} {xs : List α} :
    (∃ ys, xs.mapM f = .ok ys) ↔ ∀ x ∈ xs, ∃ y, f x = .ok y := by
  -- on the list, of which the first item is the first that may fail
  induction xs with
  | nil => exact ⟨fun _ _ h => (nomatch h), fun _ => ⟨[], List.mapM_nil⟩⟩
  | cons x xs ih =>
    rw [List.forall_mem_cons, ← ih, List.mapM_cons]
    simp only [bind_isOk_iff]
    constructor
    · rintro ⟨y, hy, ys, hys, _⟩
      exact ⟨⟨y, hy⟩, ys, hys⟩
    · rintro ⟨⟨y, hy⟩, ys, hys⟩
      exact ⟨y, hy, ys, hys, _, rfl⟩

/-- What one list is related to contains nothing without a partner. -/
theorem exists_of_forall₂_right {R : α → β → Prop} {xs : List α} {ys : List β}
    (h : List.Forall₂ R xs ys) {y : β} (hy : y ∈ ys) : ∃ x ∈ xs, R x y := by
  -- on the two lists at once
  induction h with
  | nil => exact nomatch hy
  | @cons a b as bs hab _ ih =>
    rcases List.mem_cons.mp hy with rfl | hy
    · exact ⟨a, List.mem_cons_self, hab⟩
    · obtain ⟨x, hx, hr⟩ := ih hy
      exact ⟨x, List.mem_cons_of_mem a hx, hr⟩

/-- What one list is related to has a partner for all of its entries. -/
theorem exists_of_forall₂_left {R : α → β → Prop} {xs : List α} {ys : List β}
    (h : List.Forall₂ R xs ys) {x : α} (hx : x ∈ xs) : ∃ y ∈ ys, R x y :=
  exists_of_forall₂_right h.flip hx

end Computations

namespace Catalog

/-- A handle belongs to a catalog. -/
def Has (c : Catalog) (t : TypeId) : Prop := t.index < c.size

/-- A type that is stored belongs to the catalog. -/
theorem has_of_get? {c : Catalog} {t : TypeId} {d : TypeDef} (h : c.get? t = some d) : c.Has t := by
  simp only [get?] at h
  exact (Array.getElem?_eq_some_iff.mp h).1

/-- A type is stored behind every handle of the catalog. -/
theorem exists_get?_of_has {c : Catalog} {t : TypeId} (h : c.Has t) : ∃ d, c.get? t = some d :=
  ⟨_, Array.getElem?_eq_getElem h⟩

/-- The handles of a catalog are listed. -/
theorem mem_ids {c : Catalog} {t : TypeId} (h : c.Has t) : t ∈ c.ids :=
  List.mem_map.mpr ⟨t.index, List.mem_range.mpr h, rfl⟩

/-- What has a shape belongs to the catalog. -/
private theorem has_of_shape? {c : Catalog} {t : TypeId} {s : Shape TypeId}
    (h : c.shape? t = some s) : c.Has t := by
  obtain ⟨d, hd, _⟩ := Option.map_eq_some_iff.mp h
  exact has_of_get? hd

/-- Every type of the catalog has a shape. -/
private theorem exists_shape?_of_has {c : Catalog} {t : TypeId} (h : c.Has t) :
    ∃ s, c.shape? t = some s := by
  obtain ⟨d, hd⟩ := exists_get?_of_has h
  exact ⟨d.shape, by rw [shape?, hd]; rfl⟩

/-- The elements of a type are those of its shape. -/
theorem element?_eq_of_shape? {c : Catalog} {t : TypeId} {s : Shape TypeId}
    (h : c.shape? t = some s) : c.element? t = s.element? := by
  obtain ⟨d, hd, rfl⟩ := Option.map_eq_some_iff.mp h
  rw [element?, hd]
  rfl

/-- A type with elements has a shape with elements. -/
theorem exists_shape?_of_element? {c : Catalog} {t e : TypeId} (h : c.element? t = some e) :
    ∃ s, c.shape? t = some s ∧ s.element? = some e := by
  obtain ⟨d, hd, he⟩ := Option.bind_eq_some_iff.mp h
  exact ⟨d.shape, by rw [shape?, hd]; rfl, he⟩

/-- Every handle that a catalog stores belongs to it, and its chains come to an end. -/
structure Closed (c : Catalog) : Prop where
  element : ∀ {t e}, c.element? t = some e → c.Has e
  superclass : ∀ {t u}, c.superclass? t = some u → c.Has u
  member : ∀ {t d}, c.get? t = some d → ∀ m ∈ d.members, c.Has m.type
  element_ends : ∀ t, ends c.element? c.size t = true
  superclass_ends : ∀ t, ends c.superclass? c.size t = true

/-! ## Resolved declarations are closed -/

/-- A resolved name is the place of a name in the list. -/
private theorem index_lt_of_resolve {names : List String} {name : String} {mention : Mention}
    {t : TypeId} (h : resolve names name mention = .ok t) : t.index < names.length := by
  simp only [resolve] at h
  split at h
  · rename_i i hi
    simp only [Except.ok.injEq] at h
    subst h
    exact (List.findIdx?_eq_some_iff_getElem.mp hi).1
  · cases h

/-- A name that is resolved, if there is one, is the place of a name in the list. -/
private theorem index_lt_of_resolveOption {names : List String} {mention : Mention}
    {o : Option String} {t : TypeId} (h : resolveOption (resolve names) mention o = .ok (some t)) :
    t.index < names.length := by
  cases o with
  | none => exact nomatch h
  | some name =>
    obtain ⟨u, hu, he⟩ := map_eq_ok.mp h
    cases he
    exact index_lt_of_resolve hu

/-- The elements of a resolved shape have a place in the list of names. -/
private theorem index_lt_of_resolveShape {names : List String} {owner : String} {s : Shape String}
    {s' : Shape TypeId} {e : TypeId} (h : resolveShape (resolve names) owner s = .ok s')
    (he : s'.element? = some e) : e.index < names.length := by
  -- only arrays and collections have elements
  cases s with
  | scalar k => cases h; exact nomatch he
  | enumeration vs => cases h; exact nomatch he
  | record => cases h; exact nomatch he
  | array name =>
    obtain ⟨u, hu, hs⟩ := map_eq_ok.mp h
    subst hs
    cases he
    exact index_lt_of_resolve hu
  | collection o =>
    obtain ⟨u, hu, hs⟩ := map_eq_ok.mp h
    subst hs
    simp only [Shape.element?] at he
    subst he
    exact index_lt_of_resolveOption hu

/-- All handles of a type are below a bound. -/
structure Below (n : Nat) (d : TypeDef) : Prop where
  element : ∀ {e}, d.shape.element? = some e → e.index < n
  superclass : ∀ {u}, d.superclass = some u → u.index < n
  member : ∀ m ∈ d.members, m.type.index < n

/-- A built-in type stores no handle. -/
private theorem below_ofScalar (n : Nat) (s : Scalar) : Below n (.ofScalar s) where
  element h := nomatch h
  superclass h := nomatch h
  member _ h := nomatch h

/-- The handles of a resolved declaration have a place in the list of names. -/
private theorem below_of_resolveDecl {names : List String} {d : TypeDecl} {d' : TypeDef}
    (h : resolveDecl (resolve names) d = .ok d') : Below names.length d' := by
  obtain ⟨shape, hs, h⟩ := bind_eq_ok.mp h
  obtain ⟨superclass, hu, h⟩ := bind_eq_ok.mp h
  obtain ⟨members, hm, h⟩ := bind_eq_ok.mp h
  cases h
  -- the three parts were resolved in turn; members one by one
  refine ⟨fun he => index_lt_of_resolveShape hs he, fun {u} hv => ?_, fun m hmem => ?_⟩
  · have hv : superclass = some u := hv
    rw [hv] at hu
    exact index_lt_of_resolveOption hu
  · obtain ⟨m₀, _, hm₀⟩ := exists_of_forall₂_right (forall₂_of_mapM_eq_ok hm) hmem
    obtain ⟨u, hu, he⟩ := bind_eq_ok.mp hm₀
    cases he
    exact index_lt_of_resolve hu

/-- The check of chains accepts those that end from every type. -/
theorem checkChains_eq_ok_iff {c : Catalog} {next : TypeId → Option TypeId}
    (error : String → CatalogError) :
    checkChains c next error = .ok () ↔ ∀ t ∈ c.ids, ends next c.size t = true := by
  rw [checkChains]
  cases hfind : c.ids.find? fun t => !ends next c.size t with
  -- the check looks for the first type whose chain is cut off
  | none =>
    refine ⟨fun _ t ht => ?_, fun _ => rfl⟩
    simpa using List.find?_eq_none.mp hfind t ht
  | some t =>
    have hcut : ends next c.size t = false := by simpa using List.find?_some hfind
    refine ⟨fun h => (nomatch h), fun h => ?_⟩
    rw [h t (List.mem_of_find?_eq_some hfind)] at hcut
    cases hcut

/-- Chains that were checked come to an end, also from types outside the catalog, which start
none. -/
private theorem ends_of_checkChains {c : Catalog} {get : TypeDef → Option TypeId}
    {error : String → CatalogError}
    (h : checkChains c (fun t => (c.get? t).bind get) error = .ok ()) (t : TypeId) :
    ends (fun t => (c.get? t).bind get) c.size t = true := by
  cases hd : c.get? t with
  | none => exact ends_of_none _ (by simp only [hd, Option.bind_none])
  | some d => exact (checkChains_eq_ok_iff error).mp h t (mem_ids (has_of_get? hd))

/-- What a list of declarations resolves to is closed. -/
theorem closed_of_ofDecls {decls : List TypeDecl} {c : Catalog} (h : ofDecls decls = .ok c) :
    c.Closed := by
  -- the names are checked, the declarations resolved, and then both kinds of chains are checked
  obtain ⟨_, _, h⟩ := bind_eq_ok.mp h
  obtain ⟨declared, hdecl, h⟩ := bind_eq_ok.mp h
  obtain ⟨_, hsup, h⟩ := bind_eq_ok.mp h
  obtain ⟨_, helem, h⟩ := bind_eq_ok.mp h
  cases h
  have hall := forall₂_of_mapM_eq_ok hdecl
  have hsize : (allNames decls).length = (⟨(builtins ++ declared).toArray⟩ : Catalog).size := by
    simp [allNames, builtins, size, hall.length_eq]
  -- every type of the catalog is a built-in one or the result of resolving a declaration
  have hbelow : ∀ {t d}, (⟨(builtins ++ declared).toArray⟩ : Catalog).get? t = some d →
      Below (⟨(builtins ++ declared).toArray⟩ : Catalog).size d := by
    intro t d hd
    have hmem : d ∈ builtins ++ declared := by
      simp only [get?, List.getElem?_toArray] at hd
      exact List.mem_of_getElem? hd
    cases List.mem_append.mp hmem with
    | inl hb =>
      obtain ⟨s, _, rfl⟩ := List.mem_map.mp hb
      exact below_ofScalar _ s
    | inr hb =>
      obtain ⟨d₀, _, hd₀⟩ := exists_of_forall₂_right hall hb
      rw [← hsize]
      exact below_of_resolveDecl hd₀
  refine ⟨fun he => ?_, fun hu => ?_, fun hd m hm => (hbelow hd).member m hm, fun t => ?_,
    fun t => ?_⟩
  -- what is asked for is read off a type of the catalog
  · obtain ⟨d, hd, he⟩ := Option.bind_eq_some_iff.mp he
    exact (hbelow hd).element he
  · obtain ⟨d, hd, hu⟩ := Option.bind_eq_some_iff.mp hu
    exact (hbelow hd).superclass hu
  · exact ends_of_checkChains helem t
  · exact ends_of_checkChains hsup t

/-! ## Records -/

/-- Whether a type is converted as a record: it has no other shape.  This is so for the records of a
catalog, and for the handles of other catalogs. -/
def isRecord (c : Catalog) (t : TypeId) : Bool :=
  match c.shape? t with
  | some .record | none => true
  | some (.scalar _) | some (.array _) | some (.collection _) | some (.enumeration _) => false

/-- The records of a catalog. -/
def records (c : Catalog) : List TypeId := c.ids.filter c.isRecord

/-- In its catalog, what is converted as a record has the shape of one. -/
theorem shape?_of_isRecord {c : Catalog} {t : TypeId} (ht : c.Has t) (h : c.isRecord t = true) :
    c.shape? t = some .record := by
  obtain ⟨s, hs⟩ := exists_shape?_of_has ht
  rw [isRecord, hs] at h
  cases s with
  | record => exact hs
  | scalar k | array e | collection o | enumeration variants => exact nomatch h

/-- The shape of a record is converted as one. -/
theorem isRecord_of_shape? {c : Catalog} {t : TypeId} (h : c.shape? t = some .record) :
    c.isRecord t = true := by
  simp only [isRecord, h]

/-- The records are listed. -/
theorem mem_records {c : Catalog} {t : TypeId} (h : c.shape? t = some .record) : t ∈ c.records :=
  List.mem_filter.mpr ⟨mem_ids (has_of_shape? h), isRecord_of_shape? h⟩

/-- A type with elements is no record. -/
theorem isRecord_of_element? {c : Catalog} {t e : TypeId} (h : c.element? t = some e) :
    c.isRecord t = false := by
  obtain ⟨s, hs, he⟩ := exists_shape?_of_element? h
  cases s with
  | array _ | collection _ => simp only [isRecord, hs]
  | scalar _ | enumeration _ | record => exact nomatch he

/-- A record has no elements. -/
theorem element?_of_isRecord {c : Catalog} {t : TypeId} (h : c.isRecord t = true) :
    c.element? t = none := by
  cases helement : c.element? t with
  | none => rfl
  | some e =>
    rw [isRecord_of_element? helement] at h
    cases h

/-! ## Steps to the elements -/

/-- The number of steps from a type to its elements, their elements and so on. -/
def elementSteps (c : Catalog) (t : TypeId) : Nat := (chain c.element? c.size t).length - 1

/-- Whether a type is an array or a collection. -/
def isContainer (c : Catalog) (t : TypeId) : Bool :=
  match c.shape? t with
  | some (.array _) | some (.collection _) => true
  | _ => false

/-- The arrays and collections of a catalog. -/
def containers (c : Catalog) : List TypeId := c.ids.filter c.isContainer

/-- A container is one step from its elements. -/
theorem Closed.elementSteps_of_some {c : Catalog} (hc : c.Closed) {t e : TypeId}
    (h : c.element? t = some e) : c.elementSteps t = c.elementSteps e + 1 := by
  have hpos := List.length_pos_iff.mpr (show chain c.element? c.size e ≠ [] from chain_ne_nil _ _)
  -- the chain of the container is one longer, and neither chain is empty
  rw [elementSteps, elementSteps, chain_of_some (hc.element_ends t) h, List.length_cons]
  omega

/-- A type has no more element steps than there are containers. -/
theorem Closed.elementSteps_le {c : Catalog} (hc : c.Closed) (t : TypeId) :
    c.elementSteps t ≤ c.containers.length := by
  -- only containers have elements
  have hmem : ∀ u, (c.element? u).isSome → u ∈ c.containers := by
    intro u hu
    obtain ⟨e, he⟩ := Option.isSome_iff_exists.mp hu
    obtain ⟨s, hs, hse⟩ := exists_shape?_of_element? he
    refine List.mem_filter.mpr ⟨mem_ids (has_of_shape? hs), ?_⟩
    rw [isContainer, hs]
    cases s with
    | array _ | collection _ => rfl
    | scalar _ | enumeration _ | record => exact nomatch hse
  have hle := chain_length_le (hc.element_ends t) hmem
  rw [elementSteps]
  omega

end Catalog

end Schemata
