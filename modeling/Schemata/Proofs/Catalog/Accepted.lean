import Schemata.Proofs.Catalog.Index

/-!
# Which declarations make a catalog

Declarations make a catalog exactly if they are well formed: every name is there, is used once and
is no built-in one, all types that are mentioned exist, and neither superclasses nor elements lead
back to where they came from.  `WellDeclared` says so in terms of names, before anything is
resolved.

A check of chains counts steps, and a chain that never comes back has fewer steps than the catalog
has types.  A chain that runs into a cycle further on takes more steps, wherever it started.  So it
makes no difference whether steps are counted or the types on the way are remembered.

## Key results

- `resolveDecl_isOk_iff`: which mentions of other types are accepted
- `ends_iff_neverRevisits`: counting steps finds exactly the chains that come back
- `Link.neverRevisits_handles` / `Link.neverRevisits_names`: chains of handles and of names
- `ofDecls_accepts_exactly`: which declarations make a catalog
-/

namespace Schemata

/-! ## Paths that never come back -/

/-- No path along a relation comes to the same place twice. -/
def NeverRevisits {α : Type} (R : α → α → Prop) : Prop :=
  ∀ path : List α, path.IsChain R → path.Nodup

/-- If paths are mapped to paths that never come back, they never come back themselves. -/
private theorem NeverRevisits.of_map {α β : Type} {R : α → α → Prop} {S : β → β → Prop}
    (h : NeverRevisits S) (f : α → β) (hf : ∀ a b, R a b → S (f a) (f b)) : NeverRevisits R := by
  intro path hpath
  have hmapped : (path.map f).IsChain S := List.isChain_map_of_isChain f hf hpath
  exact (h _ hmapped).of_map f

/-! ## Well-formed declarations -/

/-- The names of other types that a declaration mentions. -/
def TypeDecl.mentioned (d : TypeDecl) : List String :=
  d.shape.element?.toList ++ d.superclass.toList ++ d.members.map (·.type)

/-- A type is declared with a reference to another, where `get` reads the reference. -/
def Declares (decls : List TypeDecl) (get : TypeDecl → Option String) (name target : String) :
    Prop :=
  ∃ d ∈ decls, d.name = name ∧ get d = some target

/-- Declarations that make sense together. -/
structure WellDeclared (decls : List TypeDecl) : Prop where
  named : ∀ d ∈ decls, d.name ≠ ""
  distinct : (decls.map (·.name)).Nodup
  /-- No built-in type is declared again. -/
  not_builtin : ∀ d ∈ decls, d.name ∉ Scalar.all.map Scalar.name
  /-- All types that are mentioned are declared or built in. -/
  mentioned : ∀ d ∈ decls, ∀ name ∈ d.mentioned,
    name ∈ decls.map (·.name) ∨ name ∈ Scalar.all.map Scalar.name
  /-- Following superclasses, no type is met twice. -/
  superclasses : NeverRevisits (Declares decls (·.superclass))
  /-- Following elements, no type is met twice. -/
  elements : NeverRevisits (Declares decls (·.shape.element?))

namespace Catalog

variable {decls : List TypeDecl} {c : Catalog} {names : List String}

/-! ## What each check accepts -/

/-- A name resolves exactly if it is in the list. -/
private theorem resolve_isOk_iff (mention : Mention) {name : String} :
    (∃ t, resolve names name mention = .ok t) ↔ name ∈ names := by
  rw [resolve]
  -- resolving is searching the list for the first entry that is the name
  cases hfind : names.findIdx? (· = name) with
  | none =>
    have hnone : name ∉ names := by
      intro hmem
      have hne := List.findIdx?_eq_none_iff.mp hfind name hmem
      exact absurd rfl (of_decide_eq_false hne)
    refine ⟨?_, fun h => absurd h hnone⟩
    rintro ⟨_, h⟩
    cases h
  | some i =>
    obtain ⟨hlt, hi, _⟩ := List.findIdx?_eq_some_iff_getElem.mp hfind
    have hmem : name ∈ names := of_decide_eq_true hi ▸ List.getElem_mem hlt
    exact ⟨fun _ => hmem, fun _ => ⟨⟨i⟩, rfl⟩⟩

/-- A name that may be left out resolves if it is there whenever it is given. -/
private theorem resolveOption_isOk_iff (mention : Mention) {o : Option String} :
    (∃ t, resolveOption (resolve names) mention o = .ok t) ↔ ∀ name ∈ o, name ∈ names := by
  cases o with
  | none => exact ⟨fun _ _ h => (nomatch h), fun _ => ⟨none, rfl⟩⟩
  | some name =>
    simp only [resolveOption, map_isOk_iff, resolve_isOk_iff, Option.mem_some_iff, forall_eq']

/-- A shape resolves exactly if its element does. -/
private theorem resolveShape_isOk_iff (owner : String) {s : Shape String} :
    (∃ s', resolveShape (resolve names) owner s = .ok s') ↔ ∀ name ∈ s.element?, name ∈ names := by
  -- only arrays and collections mention a name
  cases s with
  | scalar k => exact ⟨fun _ _ h => (nomatch h), fun _ => ⟨_, rfl⟩⟩
  | enumeration variants => exact ⟨fun _ _ h => (nomatch h), fun _ => ⟨_, rfl⟩⟩
  | record => exact ⟨fun _ _ h => (nomatch h), fun _ => ⟨_, rfl⟩⟩
  | array e =>
    simp only [resolveShape, map_isOk_iff, resolve_isOk_iff, Shape.element?, Option.mem_some_iff,
      forall_eq']
  | collection o =>
    simp only [resolveShape, map_isOk_iff, resolveOption_isOk_iff, Shape.element?]

/-- A member resolves exactly if its type does. -/
private theorem resolveMember_isOk_iff (owner : String) {m : Member String} :
    (∃ m', resolveMember (resolve names) owner m = .ok m') ↔ m.type ∈ names := by
  rw [← resolve_isOk_iff (.member m.name owner)]
  exact map_isOk_iff (f := fun type => { m with type })

/-- A declaration is resolved if all names that it mentions are there. -/
theorem resolveDecl_isOk_iff {d : TypeDecl} :
    (∃ d', resolveDecl (resolve names) d = .ok d') ↔ ∀ name ∈ d.mentioned, name ∈ names := by
  have hmembers : (∃ ms, d.members.mapM (resolveMember (resolve names) d.name) = .ok ms) ↔
      ∀ m ∈ d.members, m.type ∈ names := by
    simp only [mapM_isOk_iff, resolveMember_isOk_iff]
  have hmentioned : (∀ name ∈ d.mentioned, name ∈ names) ↔
      (∀ name ∈ d.shape.element?, name ∈ names) ∧ (∀ name ∈ d.superclass, name ∈ names) ∧
        ∀ m ∈ d.members, m.type ∈ names := by
    simp only [TypeDecl.mentioned, List.forall_mem_append, Option.mem_toList, Option.mem_def,
      List.forall_mem_map, and_assoc]
  rw [hmentioned, ← hmembers, ← resolveShape_isOk_iff d.name,
    ← resolveOption_isOk_iff (.superclass d.name)]
  -- the three parts are resolved one after the other, and each of them may fail
  constructor
  · rintro ⟨d', h⟩
    obtain ⟨shape, hs, h⟩ := bind_eq_ok.mp h
    obtain ⟨superclass, hu, h⟩ := bind_eq_ok.mp h
    obtain ⟨members, hm, _⟩ := bind_eq_ok.mp h
    exact ⟨⟨shape, hs⟩, ⟨superclass, hu⟩, members, hm⟩
  · rintro ⟨⟨shape, hs⟩, ⟨superclass, hu⟩, members, hm⟩
    refine bind_isOk_iff.mpr ⟨shape, hs, bind_isOk_iff.mpr ⟨superclass, hu, ?_⟩⟩
    exact bind_isOk_iff.mpr ⟨members, hm, _, rfl⟩

/-- Where handles have successors in the catalog, chains end within as many steps as there are types
exactly if they never come back. -/
theorem ends_iff_neverRevisits {next : TypeId → Option TypeId}
    (hhas : ∀ {t u}, next t = some u → c.Has t ∧ c.Has u) :
    (∀ t ∈ c.ids, ends next c.size t = true) ↔ NeverRevisits fun t u => next t = some u := by
  constructor
  -- a type outside the catalog has no successor, so its chain ends at once
  · intro h
    have hends : ∀ t, ends next c.size t = true := by
      intro t
      cases ht : next t with
      | none => exact ends_of_none _ ht
      | some u => exact h t (mem_ids (hhas ht).1)
    intro path hpath
    -- a path is the beginning of the chain from its first type
    cases path with
    | nil => exact List.nodup_nil
    | cons t path => exact (chain_nodup (hends t)).sublist (prefix_chain hends hpath).sublist
  · intro h t ht
    by_contra hnot
    -- a chain that is cut off visits more types than the catalog has
    have hlength := length_chain_of_not_ends (Bool.eq_false_iff.mpr hnot)
    have hin : chain next c.size t ⊆ c.ids :=
      forall_mem_chain (P := (· ∈ c.ids)) ht (fun _ hs => mem_ids (hhas hs).2) c.size
    have hle := (h _ (isChain_chain next c.size t)).length_le_of_subset hin
    rw [hlength, ids, List.length_map, List.length_range] at hle
    omega

/-! ## Chains of names and chains of handles -/

/-- A reference of declarations, and the handle to which resolving turns it. -/
structure Link (get : TypeDecl → Option String) (get' : TypeDef → Option TypeId) : Prop where
  rel : ∀ {R : String → TypeId → Prop} {e d}, e.Matches R d → Option.Rel R (get e) (get' d)
  scalar : ∀ s, get' (.ofScalar s) = none

/-- Superclasses are references of declarations. -/
private theorem link_superclass : Link (·.superclass) (·.superclass) :=
  ⟨fun h => h.superclass, fun _ => rfl⟩

/-- So are the elements of arrays and collections. -/
private theorem link_element : Link (·.shape.element?) (·.shape.element?) :=
  ⟨fun h => h.shape.element?, fun _ => rfl⟩

/-- A name that a type goes under is its name. -/
theorem name_of_names {name : String} {t : TypeId} (h : c.Names name t) : c.name t = name := by
  obtain ⟨d, hd, rfl⟩ := h
  rw [Catalog.name, hd]
  rfl

/-- A name is given to types of the catalog only. -/
theorem Names.has {name : String} {t : TypeId} (h : c.Names name t) : c.Has t := by
  obtain ⟨d, hd, _⟩ := h
  exact has_of_get? hd

/-- Every name is looked up to the type that goes under it. -/
theorem lookup_of_names (h : ofDecls decls = .ok c) {name : String} {t : TypeId}
    (ht : c.Names name t) : c.lookup name = some t := by
  have hmem : name ∈ allNames decls := List.mem_of_getElem? ((names_iff h).mp ht)
  obtain ⟨u, hu, hname⟩ := exists_lookup h hmem
  rw [hu, hname.unique h ht]

namespace Link

variable {get : TypeDecl → Option String} {get' : TypeDef → Option TypeId}

/-- A handle that a type stores was declared as the name of another type. -/
private theorem declares (hlink : Link get get') (hc : Resolves decls c) {t u : TypeId}
    (hu : (c.get? t).bind get' = some u) :
    ∃ name target, Declares decls get name target ∧ c.Names name t ∧ c.Names target u := by
  obtain ⟨d, hd, hget⟩ := Option.bind_eq_some_iff.mp hu
  -- built-in types refer to no other, so the handle comes from a declaration
  rcases hc.exists_decl hd with ⟨s, rfl⟩ | ⟨e, he, hmatches⟩
  · rw [hlink.scalar] at hget
    cases hget
  · have hrel := hlink.rel hmatches
    rw [hget] at hrel
    generalize hname : get e = o at hrel
    cases hrel with
    | @some target _ hstands =>
      exact ⟨e.name, target, ⟨e, he, rfl, hname⟩, ⟨d, hd, hmatches.name.symm⟩,
        hc.names_iff.mpr hstands⟩

/-- If names never lead back, handles do not either. -/
theorem neverRevisits_handles (hlink : Link get get') (hc : Resolves decls c)
    (h : NeverRevisits (Declares decls get)) :
    NeverRevisits fun t u => (c.get? t).bind get' = some u := by
  -- a path of handles is mapped to the path of their names
  refine h.of_map c.name fun t u hu => ?_
  obtain ⟨name, target, hdeclares, ht, hu⟩ := hlink.declares hc hu
  rwa [name_of_names ht, name_of_names hu]

/-- If handles never lead back, names do not either. -/
theorem neverRevisits_names (hlink : Link get get') (hc : ofDecls decls = .ok c)
    (h : NeverRevisits fun t u => (c.get? t).bind get' = some u) :
    NeverRevisits (Declares decls get) := by
  -- the default is never met, since every name along a path is declared
  refine h.of_map (fun name => (c.lookup name).getD default) ?_
  rintro name target ⟨e, he, rfl, hget⟩
  obtain ⟨t, d, hd, hmatches⟩ := exists_get?_of_mem hc he
  have hrel := hlink.rel hmatches
  rw [hget] at hrel
  generalize hhandle : get' d = o at hrel
  cases hrel with
  | @some _ u hstands =>
    simp only [lookup_of_names hc ⟨d, hd, hmatches.name.symm⟩,
      lookup_of_names hc ((names_iff hc).mpr hstands), Option.getD_some, hd, Option.bind_some,
      hhandle]

/-- The check of chains accepts what never leads back. -/
private theorem ends_iff (hlink : Link get get') (hc : Resolves decls c) :
    (∀ t ∈ c.ids, ends (fun t => (c.get? t).bind get') c.size t = true) ↔
      NeverRevisits fun t u => (c.get? t).bind get' = some u := by
  refine ends_iff_neverRevisits fun hu => ?_
  obtain ⟨_, _, _, ht, hu⟩ := hlink.declares hc hu
  exact ⟨ht.has, hu.has⟩

end Link

/-! ## What makes a catalog -/

/-- The names of a catalog are those that are declared and those of the built-in types. -/
private theorem mem_allNames_iff {name : String} :
    name ∈ allNames decls ↔ name ∈ decls.map (·.name) ∨ name ∈ Scalar.all.map Scalar.name := by
  rw [allNames, List.mem_append, or_comm]

/-- Declarations that make a catalog are well formed. -/
private theorem wellDeclared_of_ofDecls (h : ofDecls decls = .ok c) : WellDeclared decls := by
  have hclosed := closed_of_ofDecls h
  have hresolves := (exists_declared_of_ofDecls h).2
  obtain ⟨_, hnames, hrest⟩ := bind_eq_ok.mp h
  obtain ⟨declared, hdeclared, _⟩ := bind_eq_ok.mp hrest
  obtain ⟨hnamed, hdistinct, hfree⟩ := checkNames_eq_ok_iff.mp hnames
  refine ⟨hnamed, hdistinct, hfree, fun d hd name hname => ?_, ?_, ?_⟩
  -- every mentioned name was found among the names of all types
  · have hresolve := mapM_isOk_iff.mp ⟨declared, hdeclared⟩ d hd
    exact mem_allNames_iff.mp (resolveDecl_isOk_iff.mp hresolve name hname)
  -- both checks of chains have passed, so neither kind of reference leads back
  · exact link_superclass.neverRevisits_names h
      ((link_superclass.ends_iff hresolves).mp fun t _ => hclosed.superclass_ends t)
  · exact link_element.neverRevisits_names h
      ((link_element.ends_iff hresolves).mp fun t _ => hclosed.element_ends t)

/-- Well-formed declarations make a catalog. -/
private theorem exists_ofDecls_of_wellDeclared (h : WellDeclared decls) :
    ∃ c, ofDecls decls = .ok c := by
  have hnames : checkNames (Scalar.all.map Scalar.name) decls = .ok () :=
    checkNames_eq_ok_iff.mpr ⟨h.named, h.distinct, h.not_builtin⟩
  obtain ⟨declared, hdeclared⟩ := mapM_isOk_iff.mpr fun d hd =>
    resolveDecl_isOk_iff.mpr fun name hname => mem_allNames_iff.mpr (h.mentioned d hd name hname)
  -- the checks of chains are about these handles, and the paths are paths of names
  have hc : Resolves decls ⟨(builtins ++ declared).toArray⟩ :=
    ⟨declared, rfl, forall₂_of_mapM_eq_ok hdeclared⟩
  have hsuperclasses := (checkChains_eq_ok_iff .cyclicSuperclasses).mpr
    ((link_superclass.ends_iff hc).mpr (link_superclass.neverRevisits_handles hc h.superclasses))
  have helements := (checkChains_eq_ok_iff .cyclicElements).mpr
    ((link_element.ends_iff hc).mpr (link_element.neverRevisits_handles hc h.elements))
  -- none of the four steps fails: names, declarations, superclasses, elements
  refine bind_isOk_iff.mpr ⟨(), hnames, bind_isOk_iff.mpr ⟨declared, hdeclared, ?_⟩⟩
  exact bind_isOk_iff.mpr ⟨(), hsuperclasses, bind_isOk_iff.mpr ⟨(), helements, _, rfl⟩⟩

/-- A list of declarations makes a catalog exactly if it is well formed, and is refused with an
error otherwise; with an index of names and a memory of the types that were met, it comes to the
same catalog or error.  In a catalog, the ancestors of a type are the type itself and its
superclasses up to one that has none, each once, and all of them belong to the catalog. -/
theorem ofDecls_accepts_exactly (decls : List TypeDecl) :
    ((∃ c, ofDecls decls = .ok c) ↔ WellDeclared decls) ∧
    ((∃ e, ofDecls decls = .error e) ↔ ¬ WellDeclared decls) ∧
    (assemble decls).map (·.1) = ofDecls decls ∧
    ∀ c, ofDecls decls = .ok c → ∀ t, c.Has t →
      FollowsToEnd c.superclass? t (c.ancestors t) ∧ ∀ u ∈ c.ancestors t, c.Has u := by
  have haccepts : (∃ c, ofDecls decls = .ok c) ↔ WellDeclared decls :=
    ⟨fun ⟨_, h⟩ => wellDeclared_of_ofDecls h, exists_ofDecls_of_wellDeclared⟩
  refine ⟨haccepts, ?_, assemble_map_fst decls, fun c h t ht => ?_⟩
  -- a catalog and an error exclude each other, and one of them comes
  · rw [← haccepts]
    cases ofDecls decls with
    | error e => exact ⟨fun _ ⟨_, h⟩ => (nomatch h), fun _ => ⟨e, rfl⟩⟩
    | ok c => exact ⟨fun ⟨_, h⟩ => (nomatch h), fun h => absurd ⟨c, rfl⟩ h⟩
  · have hclosed := closed_of_ofDecls h
    exact ⟨followsToEnd_chain (hclosed.superclass_ends t),
      forall_mem_chain (P := c.Has) ht (fun _ hu => hclosed.superclass hu) c.size⟩

/-! ## References forward, and a cycle further on -/

/-- Types that are mentioned before they are declared. -/
def forwardDecls : List TypeDecl :=
  [(TypeDecl.record "Person").extending "Being", .array "People" "Person", .record "Being"]

/-- A chain of superclasses that runs into a cycle, but not back to where it starts. -/
def strayDecls : List TypeDecl :=
  [(TypeDecl.record "Cat").extending "Dog", (TypeDecl.record "Dog").extending "Fox",
    (TypeDecl.record "Fox").extending "Dog"]

/-- Types may be mentioned before they are declared, and the ancestors of the first one are itself
and its superclass.  A cycle is found from every type that leads to it. -/
theorem ofDecls_accepts_exactly_forward :
    WellDeclared forwardDecls ∧
    (∃ c, ofDecls forwardDecls = .ok c ∧ c.ancestors ⟨12⟩ = [⟨12⟩, ⟨14⟩] ∧
      FollowsToEnd c.superclass? ⟨12⟩ (c.ancestors ⟨12⟩)) ∧
    ¬ WellDeclared strayDecls := by
  obtain ⟨haccepts, _, _, hancestors⟩ := ofDecls_accepts_exactly forwardDecls
  obtain ⟨c, hc, hlist, hfirst⟩ : ∃ c, ofDecls forwardDecls = .ok c ∧
      c.ancestors ⟨12⟩ = [⟨12⟩, ⟨14⟩] ∧ c.Has ⟨12⟩ :=
    ⟨_, rfl, by decide +kernel, has_of_get? rfl⟩
  exact ⟨haccepts.mp ⟨c, hc⟩, ⟨c, hc, hlist, (hancestors c hc ⟨12⟩ hfirst).1⟩,
    (ofDecls_accepts_exactly strayDecls).2.1.mp ⟨.cyclicSuperclasses "Cat", rfl⟩⟩

end Catalog

end Schemata
