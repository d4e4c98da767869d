import Schemata.Proofs.Field

/-!
# The fields that are public or have an accessor

The usual policy goes up the superclasses of a type.  Every field that it meets stands at a `Site`:
a distance up the chain and a place among the fields of one type.  Of the fields of one name the
first one met is the *nearest*, and only a nearest field can be written.  What is listed are
therefore the nearest fields that are public or have an accessor, in the order in which they are
met.

## Key results

- `Site.IsNearest.unique` / `Site.On.exists_isNearest`: there is one nearest field of each name
- `exists_nearest_eq_map`: what one pass keeps
- `isAccessible_iff`: which fields are written
- `exists_sites`: the listed fields are the nearest ones that are written, in order
- `accessible_lists`: the same, name by name
-/

namespace Schemata.FieldPolicy

variable {c : Catalog} {t : TypeId}

/-! ## Sites -/

/-- A field, where it is declared on a chain of types. -/
structure Site where
  /-- How far up the chain the declaring type is. -/
  distance : Nat
  declaring : TypeId
  /-- The place of the field among the fields of that type. -/
  index : Nat
  member : Member TypeId
  deriving DecidableEq

namespace Site

/-- The field as it is listed. -/
def field (s : Site) : Field :=
  { name := s.member.name, type := s.member.type, declaring := s.declaring }

/-- The field together with the type that declares it. -/
def entry (s : Site) : TypeId × Member TypeId := (s.declaring, s.member)

/-- The declaring type is nearer, or the same type declares the field earlier. -/
def Before (s s' : Site) : Prop :=
  s.distance < s'.distance ∨ s.distance = s'.distance ∧ s.index < s'.index

instance (s s' : Site) : Decidable (s.Before s') :=
  inferInstanceAs (Decidable (_ ∨ _))

/-- A type on the chain of `t` declares the field at this site. -/
structure On (c : Catalog) (t : TypeId) (s : Site) : Prop where
  declaring : (c.ancestors t)[s.distance]? = some s.declaring
  member : ∃ d, c.get? s.declaring = some d ∧ d.members[s.index]? = some s.member

/-- The field is the first one of its name on the chain of `t`. -/
structure IsNearest (c : Catalog) (t : TypeId) (s : Site) : Prop where
  on : s.On c t
  first : ∀ s' : Site, s'.On c t → s'.member.name = s.member.name → ¬ s'.Before s

/-- A field does not come before itself. -/
private theorem Before.irrefl (s : Site) : ¬ s.Before s := by
  rintro (h | ⟨_, h⟩) <;> exact Nat.lt_irrefl _ h

/-- Of two fields, only one comes before the other. -/
private theorem Before.asymm {s s' : Site} (h : s.Before s') : ¬ s'.Before s := by
  simp only [Before] at h ⊢
  omega

/-- The chain has one type at a distance, and the type has one field at a place. -/
private theorem On.eq_of_place {s s' : Site} (hs : s.On c t) (hs' : s'.On c t)
    (hdistance : s.distance = s'.distance) (hindex : s.index = s'.index) : s = s' := by
  -- with the same distance and the same place, the two sites differ in nothing else
  obtain ⟨distance, u, index, m⟩ := s
  obtain ⟨distance', u', index', m'⟩ := s'
  obtain ⟨d, hd, hm⟩ := hs.member
  obtain ⟨d', hd', hm'⟩ := hs'.member
  subst hdistance hindex
  obtain rfl : u = u' := Option.some_inj.mp (hs.declaring.symm.trans hs'.declaring)
  obtain rfl : d = d' := Option.some_inj.mp (hd.symm.trans hd')
  obtain rfl : m = m' := Option.some_inj.mp (hm.symm.trans hm')
  rfl

/-- Of two fields on a chain, one is met before the other. -/
private theorem On.before_or_eq {s s' : Site} (hs : s.On c t) (hs' : s'.On c t) :
    s.Before s' ∨ s = s' ∨ s'.Before s := by
  by_cases hplace : s.distance = s'.distance ∧ s.index = s'.index
  · exact .inr (.inl (hs.eq_of_place hs' hplace.1 hplace.2))
  · simp only [Before]
    omega

/-- There is only one nearest field of a name. -/
theorem IsNearest.unique {s s' : Site} (hs : s.IsNearest c t) (hs' : s'.IsNearest c t)
    (hname : s.member.name = s'.member.name) : s = s' := by
  rcases hs.on.before_or_eq hs'.on with h | h | h
  · exact absurd h (hs'.first s hs.on hname)
  · exact h
  · exact absurd h (hs.first s' hs'.on hname.symm)

end Site

/-! ## The fields on a chain -/

/-- The fields that a type declares. -/
def membersOf (c : Catalog) (u : TypeId) : List (Member TypeId) :=
  ((c.get? u).map (·.members)).getD []

/-- All fields on the chain of a type, each at its site, in the order in which they are met. -/
def sites (c : Catalog) (t : TypeId) : List Site :=
  (c.ancestors t).zipIdx.flatMap fun p =>
    (membersOf c p.1).zipIdx.map fun q =>
      { distance := p.2, declaring := p.1, index := q.2, member := q.1 }

/-- The fields that a type declares are those of the type behind the handle. -/
private theorem getElem?_membersOf {u : TypeId} {i : Nat} {m : Member TypeId} :
    (membersOf c u)[i]? = some m ↔ ∃ d, c.get? u = some d ∧ d.members[i]? = some m := by
  cases hd : c.get? u with
  | none => simp [membersOf, hd]
  | some d => simp [membersOf, hd]

/-- The sites that are gone through are those on the chain. -/
private theorem mem_sites_iff {s : Site} : s ∈ sites c t ↔ s.On c t := by
  simp only [sites, List.mem_flatMap, List.mem_map, Prod.exists, List.mem_zipIdx_iff_getElem?,
    getElem?_membersOf]
  constructor
  · rintro ⟨u, i, hu, m, j, hm, rfl⟩
    exact ⟨hu, hm⟩
  · intro h
    exact ⟨s.declaring, s.distance, h.declaring, s.member, s.index, h.member, rfl⟩

/-- The places of a list come in order. -/
private theorem pairwise_zipIdx {α : Type} (l : List α) :
    l.zipIdx.Pairwise fun p q => p.2 < q.2 := by
  have hrange := List.pairwise_lt_range' (s := 0) (n := l.length)
  rwa [← List.zipIdx_map_snd, List.pairwise_map] at hrange

/-- The sites come in order. -/
private theorem sites_pairwise (c : Catalog) (t : TypeId) : (sites c t).Pairwise Site.Before := by
  rw [sites, List.pairwise_flatMap]
  constructor
  -- the fields of one type come by their places
  · intro p _
    rw [List.pairwise_map]
    exact (pairwise_zipIdx _).imp fun h => .inr ⟨rfl, h⟩
  · -- a type that is further up comes later, whatever the places of the fields
    refine (pairwise_zipIdx _).imp fun hlt s hs s' hs' => .inl ?_
    obtain ⟨_, _, rfl⟩ := List.mem_map.mp hs
    obtain ⟨_, _, rfl⟩ := List.mem_map.mp hs'
    exact hlt

/-- The sites belong to the fields that the policy goes through. -/
private theorem map_entry_sites (c : Catalog) (t : TypeId) :
    (sites c t).map Site.entry = declared c t := by
  have hmembers : ∀ u : TypeId, (membersOf c u).zipIdx.map (fun q => (u, q.1)) =
      (membersOf c u).map fun m => (u, m) := by
    intro u
    have hfst := congrArg (List.map fun m => (u, m)) (List.zipIdx_map_fst 0 (membersOf c u))
    rwa [List.map_map] at hfst
  -- a site is made of a type with its distance and a field with its place, which are dropped here
  calc (sites c t).map Site.entry
    _ = (c.ancestors t).zipIdx.flatMap fun p => (membersOf c p.1).map fun m => (p.1, m) := by
        simp only [sites, List.map_flatMap, List.map_map, ← hmembers]
        rfl
    _ = ((c.ancestors t).zipIdx.map Prod.fst).flatMap fun u =>
          (membersOf c u).map fun m => (u, m) := by
        rw [List.flatMap_map]
    _ = declared c t := by
        rw [List.zipIdx_map_fst]
        rfl

/-- Of the fields on a chain, which are finitely many, it can be told which are nearest. -/
private theorem isNearest_iff {s : Site} :
    s.IsNearest c t ↔
      s ∈ sites c t ∧ ∀ s' ∈ sites c t, s'.member.name = s.member.name → ¬ s'.Before s := by
  simp only [mem_sites_iff]
  exact ⟨fun h => ⟨h.on, h.first⟩, fun h => ⟨h.1, h.2⟩⟩

instance (s : Site) : Decidable (s.IsNearest c t) :=
  decidable_of_iff _ isNearest_iff.symm

/-! ## What is nearest -/

/-- Of fields in order, one pass keeps those whose names are not hidden and do not come before. -/
theorem exists_nearest_eq_map {l : List Site} (hl : l.Pairwise Site.Before)
    (hidden : List String) :
    ∃ kept : List Site, nearest hidden (l.map Site.entry) = kept.map Site.entry ∧
      kept.Sublist l ∧
      ∀ s, s ∈ kept ↔ s ∈ l ∧ s.member.name ∉ hidden ∧
        ∀ s' ∈ l, s'.member.name = s.member.name → ¬ s'.Before s := by
  -- on the sites, with the names that those before them have hidden
  induction l generalizing hidden with
  | nil => exact ⟨[], rfl, List.Sublist.refl _, by simp⟩
  | cons head rest ih =>
    obtain ⟨hhead, hrest⟩ := List.pairwise_cons.mp hl
    rw [List.map_cons, nearest]
    by_cases hmem : head.member.name ∈ hidden
    -- the name of the head is hidden, so the head is passed over and hides nothing more
    · obtain ⟨kept, hnearest, hsub, hkept⟩ := ih hrest hidden
      refine ⟨kept, (if_pos hmem).trans hnearest, hsub.cons _, fun s => ?_⟩
      rw [hkept, List.mem_cons, List.forall_mem_cons]
      constructor
      · rintro ⟨hs, hnew, hfirst⟩
        exact ⟨.inr hs, hnew, fun hname => absurd (hname ▸ hmem) hnew, hfirst⟩
      · rintro ⟨rfl | hs, hnew, _, hfirst⟩
        · exact absurd hmem hnew
        · exact ⟨hs, hnew, hfirst⟩
    -- the head is kept, and hides its name for the rest
    · obtain ⟨kept, hnearest, hsub, hkept⟩ := ih hrest (head.member.name :: hidden)
      refine ⟨head :: kept, (if_neg hmem).trans (congrArg (head.entry :: ·) hnearest),
        hsub.cons_cons _, fun s => ?_⟩
      rw [List.mem_cons, hkept, List.mem_cons, List.mem_cons, not_or, List.forall_mem_cons]
      constructor
      · rintro (rfl | ⟨hs, ⟨hne, hnew⟩, hfirst⟩)
        · exact ⟨.inl rfl, hmem, fun _ => Site.Before.irrefl s,
            fun s' hs' _ => (hhead s' hs').asymm⟩
        · exact ⟨.inr hs, hnew, fun hname => absurd hname.symm hne, hfirst⟩
      · rintro ⟨rfl | hs, hnew, hnot, hfirst⟩
        · exact .inl rfl
        · -- the head comes before `s`, so it has another name
          exact .inr ⟨hs, ⟨fun hname => hnot hname.symm (hhead s hs), hnew⟩, hfirst⟩

/-- Of all fields on a chain, the nearest ones are kept, in order. -/
private theorem exists_nearest_declared (c : Catalog) (t : TypeId) :
    ∃ kept : List Site, nearest [] (declared c t) = kept.map Site.entry ∧
      kept.Pairwise Site.Before ∧ ∀ s, s ∈ kept ↔ s.IsNearest c t := by
  obtain ⟨kept, hnearest, hsub, hkept⟩ := exists_nearest_eq_map (sites_pairwise c t) []
  rw [map_entry_sites] at hnearest
  refine ⟨kept, hnearest, (sites_pairwise c t).sublist hsub, fun s => ?_⟩
  rw [hkept, isNearest_iff]
  exact and_congr_right fun _ => and_iff_right List.not_mem_nil

/-- If the chain declares a name, one of the fields of that name is nearest. -/
theorem Site.On.exists_isNearest {s : Site} (hs : s.On c t) :
    ∃ s' : Site, s'.IsNearest c t ∧ s'.member.name = s.member.name := by
  -- the first site of the name is the nearest one
  have hsome : ((sites c t).find? (·.member.name = s.member.name)).isSome :=
    List.find?_isSome.mpr ⟨s, mem_sites_iff.mpr hs, decide_eq_true rfl⟩
  obtain ⟨s', hs'⟩ := Option.isSome_iff_exists.mp hsome
  obtain ⟨hname, before, after, hsites, hbefore⟩ := List.find?_eq_some_iff_append.mp hs'
  have hpairwise := sites_pairwise c t
  rw [hsites, List.pairwise_append] at hpairwise
  have hname := of_decide_eq_true hname
  refine ⟨s', isNearest_iff.mpr ⟨hsites ▸ by simp, fun other hmem hsame => ?_⟩, hname⟩
  rw [hsites, List.mem_append, List.mem_cons] at hmem
  rcases hmem with hmem | rfl | hmem
  -- a site before it would have been found instead
  · have hnot := hbefore other hmem
    simp [hsame, hname] at hnot
  · exact Site.Before.irrefl other
  · exact (List.rel_of_pairwise_cons hpairwise.2.1 hmem).asymm

/-! ## What is written -/

/-- A type on the chain of `t` has the method. -/
def HasMethod (c : Catalog) (t : TypeId) (method : String) : Prop :=
  ∃ u ∈ c.ancestors t, ∃ d, c.get? u = some d ∧ method ∈ d.methods

/-- What the name of an accessor of the field starts with. -/
def accessorPrefix (c : Catalog) (m : Member TypeId) : String :=
  if c.shape? m.type = some (.scalar .boolean) then "is" else "get"

/-- A method counts as the accessor of a field: it starts like an accessor, and in lower case its
name is the prefix and then the name of the field in lower case. -/
structure IsAccessorOf (c : Catalog) (m : Member TypeId) (method : String) : Prop where
  start : "get".toList <+: method.toList ∨ "is".toList <+: method.toList
  lower : Text.lowercase method = accessorPrefix c m ++ Text.lowercase m.name

/-- A field is written if it is public, unless it is static or final, or if it is not public and a
type on the chain has an accessor for it. -/
def IsWritten (c : Catalog) (t : TypeId) (m : Member TypeId) : Prop :=
  (m.visibility = .everyone ∧ m.isStatic = false ∧ m.isFinal = false) ∨
    (m.visibility ≠ .everyone ∧ ∃ method, HasMethod c t method ∧ IsAccessorOf c m method)

/-- The methods of a type are those of the types on its chain. -/
theorem mem_methods_iff {method : String} : method ∈ methods c t ↔ HasMethod c t method := by
  simp only [methods, HasMethod, List.mem_flatMap]
  refine exists_congr fun u => and_congr_right fun _ => ?_
  cases c.get? u with
  | none => simp
  | some d => simp

instance (method : String) : Decidable (HasMethod c t method) :=
  decidable_of_iff _ mem_methods_iff

/-- The name of an accessor is the prefix with the name of the field, in lower case. -/
private theorem accessorName_eq (c : Catalog) (m : Member TypeId) :
    accessorName c m = accessorPrefix c m ++ Text.lowercase m.name := by
  simp [accessorName, accessorPrefix, Catalog.isBoolean]

/-- A field has an accessor exactly if a method on the chain counts as one. -/
private theorem mem_accessors_iff {m : Member TypeId} :
    accessorName c m ∈ accessors c t ↔
      ∃ method, HasMethod c t method ∧ IsAccessorOf c m method := by
  simp only [accessors, List.mem_map, List.mem_filter, mem_methods_iff, accessorName_eq, isAccessor,
    Bool.or_eq_true, List.isPrefixOf_iff_prefix]
  constructor
  · rintro ⟨method, ⟨hmethod, hstart⟩, hlower⟩
    exact ⟨method, hmethod, hstart, hlower⟩
  · rintro ⟨method, hmethod, hstart, hlower⟩
    exact ⟨method, ⟨hmethod, hstart⟩, hlower⟩

/-- The policy writes the fields that are to be written. -/
theorem isAccessible_iff {m : Member TypeId} :
    isAccessible c (accessors c t) m = true ↔ IsWritten c t m := by
  -- the three visibilities are told apart
  cases hvisibility : m.visibility <;>
    simp [isAccessible, IsWritten, hvisibility, mem_accessors_iff]

/-! ## What is listed -/

/-- The listed fields are the nearest ones that are written, in the order in which they are met. -/
theorem exists_sites (c : Catalog) (t : TypeId) :
    ∃ listed : List Site, accessible c t = listed.map Site.field ∧ listed.Pairwise Site.Before ∧
      ∀ s, s ∈ listed ↔ s.IsNearest c t ∧ IsWritten c t s.member := by
  obtain ⟨kept, hnearest, hpairwise, hkept⟩ := exists_nearest_declared c t
  refine ⟨kept.filter fun s => isAccessible c (accessors c t) s.member, ?_, hpairwise.filter _,
    fun s => ?_⟩
  · rw [accessible, hnearest, List.filter_map, List.map_map]
    rfl
  · rw [List.mem_filter, hkept, isAccessible_iff]

/-- A name is listed if the nearest field of the name is written. -/
private theorem mem_names_iff {n : String} :
    n ∈ (accessible c t).map (·.name) ↔
      ∃ s : Site, s.IsNearest c t ∧ s.member.name = n ∧ IsWritten c t s.member := by
  obtain ⟨listed, hlisted, _, hmem⟩ := exists_sites c t
  rw [hlisted, List.map_map, List.mem_map]
  refine exists_congr fun s => ?_
  rw [hmem, and_assoc]
  exact and_congr_right fun _ => and_comm

/-- For the name of a nearest field, it depends on this field alone whether it is listed. -/
theorem Site.IsNearest.mem_names_iff {s : Site} (hs : s.IsNearest c t) :
    s.member.name ∈ (accessible c t).map (·.name) ↔ IsWritten c t s.member := by
  rw [FieldPolicy.mem_names_iff]
  constructor
  · rintro ⟨s', hs', hname, hwritten⟩
    rwa [hs.unique hs' hname.symm]
  · exact fun hwritten => ⟨s, hs, rfl, hwritten⟩

/-- A list of fields tells what is written for a type. -/
structure ListsAccessible (c : Catalog) (t : TypeId) (fields : List Field) : Prop where
  names_nodup : (fields.map (·.name)).Nodup
  /-- A name is listed if the chain declares it and its nearest field is written. -/
  mem_names_iff : ∀ n, n ∈ fields.map (·.name) ↔
    ∃ s : Site, s.IsNearest c t ∧ s.member.name = n ∧ IsWritten c t s.member
  /-- A nearest field that is not written hides all others of its name. -/
  hides : ∀ s : Site, s.IsNearest c t → ¬ IsWritten c t s.member →
    ∀ f ∈ fields, f.name ≠ s.member.name
  /-- The fields have the types and the declaring types of these sites, and come in their order. -/
  sites : ∃ listed : List Site, fields = listed.map Site.field ∧ listed.Pairwise Site.Before ∧
    ∀ s, s ∈ listed ↔ s.IsNearest c t ∧ IsWritten c t s.member

/-- The usual policy goes through a type and its superclasses up to the last one.  If the chain
declares a name, just one field of the name is nearest; the policy lists the nearest fields that are
public or have an accessor anywhere on the chain, and no others. -/
theorem accessible_lists {decls : List TypeDecl} (h : Catalog.ofDecls decls = .ok c)
    (ht : c.Has t) :
    Catalog.FollowsToEnd c.superclass? t (c.ancestors t) ∧ (∀ u ∈ c.ancestors t, c.Has u) ∧
    (∀ s : Site, s.On c t → ∃! s' : Site, s'.IsNearest c t ∧ s'.member.name = s.member.name) ∧
    ListsAccessible c t (accessible c t) := by
  have hclosed := Catalog.closed_of_ofDecls h
  refine ⟨Catalog.followsToEnd_chain (hclosed.superclass_ends t),
    Catalog.forall_mem_chain (P := c.Has) ht (fun _ hu => hclosed.superclass hu) c.size,
    fun s hs => ?_, ?_⟩
  -- of the fields of a name, one is nearest, and no other
  · obtain ⟨s', hnearest, hname⟩ := hs.exists_isNearest
    exact ⟨s', ⟨hnearest, hname⟩, fun other hother =>
      hother.1.unique hnearest (hother.2.trans hname.symm)⟩
  -- a name that is listed is that of a nearest field that is written
  · refine ⟨accessible_names_nodup c t, fun n => mem_names_iff, fun s hs hnot f hf hname => ?_,
      exists_sites c t⟩
    exact hnot (hs.mem_names_iff.mp (hname ▸ List.mem_map_of_mem hf))

/-- An item hides the note of its superclass, and declares a code twice.  Its superclass has the
accessors for the code and the open flag. -/
def itemDecls : List TypeDecl :=
  [((TypeDecl.record "Item").extending "Stock"
      |>.withMember { name := "note", type := "string", visibility := .owner }
      |>.withMember { name := "code", type := "int", visibility := .owner }
      |>.withMember { name := "code", type := "string", visibility := .everyone }),
    (TypeDecl.record "Stock"
      |>.withMember { name := "note", type := "string", visibility := .everyone }
      |>.withMember { name := "open", type := "Flag" }
      |>.withMethod "getCODE"
      |>.withMethod "isOpen"),
    .scalar "Flag" .boolean]

/-- Only the first code and the flag are listed, each of the type that declares it. -/
theorem accessible_lists_item :
    ∃ c, Catalog.ofDecls itemDecls = .ok c ∧ c.ancestors ⟨12⟩ = [⟨12⟩, ⟨13⟩] ∧
      accessible c ⟨12⟩ = [⟨"code", Catalog.scalar .int, ⟨12⟩⟩, ⟨"open", ⟨14⟩, ⟨13⟩⟩] ∧
      ListsAccessible c ⟨12⟩ (accessible c ⟨12⟩) := by
  obtain ⟨c, hc, hancestors, hlisted, hitem⟩ : ∃ c, Catalog.ofDecls itemDecls = .ok c ∧
      c.ancestors ⟨12⟩ = [⟨12⟩, ⟨13⟩] ∧
      accessible c ⟨12⟩ = [⟨"code", Catalog.scalar .int, ⟨12⟩⟩, ⟨"open", ⟨14⟩, ⟨13⟩⟩] ∧
      c.Has ⟨12⟩ :=
    ⟨_, rfl, by decide +kernel, by decide +kernel, Catalog.has_of_get? rfl⟩
  exact ⟨c, hc, hancestors, hlisted, (accessible_lists hc hitem).2.2.2⟩

end Schemata.FieldPolicy
