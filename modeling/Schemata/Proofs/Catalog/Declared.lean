import Schemata.Proofs.Catalog.Closed

/-!
# What a catalog says of its declarations

No two types of a resolved catalog have the same name, and a declaration is resolved to a type that
says the same, with handles for the names that it mentions.  So two catalogs say the same of the
declarations that both contain, wherever these stand.

## Key results

- `matches_of_resolveDecl`: resolving keeps what a declaration says
- `Names.unique`: a name belongs to one type only
- `Alike.matches`: catalogs agree on the types that they have in common
-/

namespace Schemata

/-! ## The same data over other references -/

section Matches

variable {ρ σ τ : Type} {P : ρ → σ → Prop} {Q : ρ → τ → Prop} {R : σ → τ → Prop}

/-- Shapes of one kind, whose elements are related. -/
inductive Shape.Matches (R : ρ → σ → Prop) : Shape ρ → Shape σ → Prop where
  | scalar (s : Scalar) : Matches R (.scalar s) (.scalar s)
  | array {e e'} (he : R e e') : Matches R (.array e) (.array e')
  | collection {o o'} (ho : Option.Rel R o o') : Matches R (.collection o) (.collection o')
  | enumeration (variants : List String) : Matches R (.enumeration variants) (.enumeration variants)
  | record : Matches R .record .record

/-- Members that say the same, of related types. -/
structure Member.Matches (R : ρ → σ → Prop) (m : Member ρ) (m' : Member σ) : Prop where
  name : m.name = m'.name
  type : R m.type m'.type
  visibility : m.visibility = m'.visibility
  isStatic : m.isStatic = m'.isStatic
  isFinal : m.isFinal = m'.isFinal

/-! What matches the same data matches each other, if that holds of the references. -/

/-- References that may be left out are related, if both go with the same one. -/
private theorem optionRel_join (hjoin : ∀ x y z, P x y → Q x z → R y z) {o : Option ρ}
    {o' : Option σ} {o'' : Option τ} (h : Option.Rel P o o') (h' : Option.Rel Q o o'') :
    Option.Rel R o' o'' := by
  cases h with
  | none => cases h' with | none => exact .none
  | some hx => cases h' with | some hy => exact .some (hjoin _ _ _ hx hy)

/-- Entries of two lists are related one by one, if both go with the entries of a third. -/
private theorem forall₂_join {α β γ : Type} {P : α → β → Prop} {Q : α → γ → Prop} {R : β → γ → Prop}
    (hjoin : ∀ x y z, P x y → Q x z → R y z) {xs : List α} {ys : List β} {zs : List γ}
    (h : List.Forall₂ P xs ys) (h' : List.Forall₂ Q xs zs) : List.Forall₂ R ys zs := by
  -- on the first pair of lists; the other pair then has the same form
  induction h generalizing zs with
  | nil => cases h' with | nil => exact .nil
  | cons hx _ ih => cases h' with | cons hy hys => exact .cons (hjoin _ _ _ hx hy) (ih hys)

/-- Shapes that match the same shape match each other. -/
private theorem Shape.Matches.join (hjoin : ∀ x y z, P x y → Q x z → R y z) {s : Shape ρ}
    {s' : Shape σ} {s'' : Shape τ} (h : s.Matches P s') (h' : s.Matches Q s'') :
    s'.Matches R s'' := by
  -- the shape in common fixes the kind of the two others
  cases h with
  | scalar k => cases h' with | scalar => exact .scalar k
  | array he => cases h' with | array he' => exact .array (hjoin _ _ _ he he')
  | collection ho =>
    cases h' with | collection ho' => exact .collection (optionRel_join hjoin ho ho')
  | enumeration vs => cases h' with | enumeration => exact .enumeration vs
  | record => cases h' with | record => exact .record

/-- The elements of shapes that match are related. -/
theorem Shape.Matches.element? {s : Shape ρ} {s' : Shape σ} (h : s.Matches P s') :
    Option.Rel P s.element? s'.element? := by
  cases h with
  | array he => exact .some he
  | collection ho => exact ho
  | scalar | enumeration | record => exact .none

/-- Members that match the same member match each other. -/
private theorem Member.Matches.join (hjoin : ∀ x y z, P x y → Q x z → R y z) {m : Member ρ}
    {m' : Member σ} {m'' : Member τ} (h : m.Matches P m') (h' : m.Matches Q m'') :
    m'.Matches R m'' where
  name := h.name.symm.trans h'.name
  type := hjoin _ _ _ h.type h'.type
  visibility := h.visibility.symm.trans h'.visibility
  isStatic := h.isStatic.symm.trans h'.isStatic
  isFinal := h.isFinal.symm.trans h'.isFinal

end Matches

/-- A type says what a declaration says, of types related to the names that it mentions. -/
structure TypeDecl.Matches (R : String → TypeId → Prop) (e : TypeDecl) (d : TypeDef) : Prop where
  name : e.name = d.name
  simpleName : e.shortName = d.simpleName
  shape : e.shape.Matches R d.shape
  superclass : Option.Rel R e.superclass d.superclass
  members : List.Forall₂ (Member.Matches R) e.members d.members
  methods : e.methods = d.methods

/-- Types that say the same, of related types. -/
structure TypeDef.Matches (R : TypeId → TypeId → Prop) (d d' : TypeDef) : Prop where
  name : d.name = d'.name
  simpleName : d.simpleName = d'.simpleName
  shape : d.shape.Matches R d'.shape
  superclass : Option.Rel R d.superclass d'.superclass
  members : List.Forall₂ (Member.Matches R) d.members d'.members
  methods : d.methods = d'.methods

/-- Types that say what one declaration says match each other. -/
private theorem TypeDecl.Matches.join {P Q : String → TypeId → Prop} {R : TypeId → TypeId → Prop}
    (hjoin : ∀ x y z, P x y → Q x z → R y z) {e : TypeDecl} {d d' : TypeDef}
    (h : e.Matches P d) (h' : e.Matches Q d') : d.Matches R d' where
  name := h.name.symm.trans h'.name
  simpleName := h.simpleName.symm.trans h'.simpleName
  shape := h.shape.join hjoin h'.shape
  superclass := optionRel_join hjoin h.superclass h'.superclass
  members := forall₂_join (fun _ _ _ hm hm' => hm.join hjoin hm') h.members h'.members
  methods := h.methods.symm.trans h'.methods

/-- A built-in type mentions no other. -/
private theorem TypeDef.matches_ofScalar (R : TypeId → TypeId → Prop) (s : Scalar) :
    (TypeDef.ofScalar s).Matches R (.ofScalar s) :=
  ⟨rfl, rfl, .scalar s, .none, .nil, rfl⟩

namespace Catalog

/-! ## Resolving keeps what a declaration says -/

section Resolve

variable {names : List String} {mention : Mention} {owner : String}

/-- A name stands at the place that it is resolved to. -/
def Stands (names : List String) (name : String) (t : TypeId) : Prop := names[t.index]? = some name

/-- A name that is resolved stands at the place that it is resolved to. -/
private theorem stands_of_resolve {name : String} {t : TypeId}
    (h : resolve names name mention = .ok t) : Stands names name t := by
  rw [resolve] at h
  split at h
  · rename_i i hi
    cases h
    obtain ⟨hlt, hname, _⟩ := List.findIdx?_eq_some_iff_getElem.mp hi
    rw [Stands, List.getElem?_eq_getElem hlt, of_decide_eq_true hname]
  · cases h

/-- So does a name that may be left out. -/
private theorem stands_of_resolveOption {o : Option String} {o' : Option TypeId}
    (h : resolveOption (resolve names) mention o = .ok o') : Option.Rel (Stands names) o o' := by
  cases o with
  | none =>
    cases h
    exact .none
  | some name =>
    obtain ⟨t, ht, rfl⟩ := map_eq_ok.mp h
    exact .some (stands_of_resolve ht)

/-- A shape is resolved to one of the same kind. -/
private theorem matches_of_resolveShape {s : Shape String} {s' : Shape TypeId}
    (h : resolveShape (resolve names) owner s = .ok s') : s.Matches (Stands names) s' := by
  cases s with
  | scalar k =>
    cases h
    exact .scalar k
  | array name =>
    obtain ⟨t, ht, rfl⟩ := map_eq_ok.mp h
    exact .array (stands_of_resolve ht)
  | collection o =>
    obtain ⟨o', ho, rfl⟩ := map_eq_ok.mp h
    exact .collection (stands_of_resolveOption ho)
  | enumeration variants =>
    cases h
    exact .enumeration variants
  | record =>
    cases h
    exact .record

/-- A member is resolved to one that says the same. -/
private theorem matches_of_resolveMember {m : Member String} {m' : Member TypeId}
    (h : resolveMember (resolve names) owner m = .ok m') : m.Matches (Stands names) m' := by
  obtain ⟨t, ht, h⟩ := bind_eq_ok.mp h
  cases h
  exact ⟨rfl, stands_of_resolve ht, rfl, rfl, rfl⟩

/-- A declaration is resolved to a type that says the same, of the types at the places of the names
that it mentions. -/
theorem matches_of_resolveDecl {e : TypeDecl} {d : TypeDef}
    (h : resolveDecl (resolve names) e = .ok d) : e.Matches (Stands names) d := by
  obtain ⟨shape, hs, h⟩ := bind_eq_ok.mp h
  obtain ⟨superclass, hu, h⟩ := bind_eq_ok.mp h
  obtain ⟨members, hm, h⟩ := bind_eq_ok.mp h
  cases h
  exact ⟨rfl, rfl, matches_of_resolveShape hs, stands_of_resolveOption hu,
    (forall₂_of_mapM_eq_ok hm).imp fun _ _ => matches_of_resolveMember, rfl⟩

end Resolve

/-! ## The types of a resolved catalog -/

/-- Names are accepted if they are there, new and different from each other. -/
theorem checkNames_eq_ok_iff {decls : List TypeDecl} {taken : List String} :
    checkNames taken decls = .ok () ↔
      (∀ d ∈ decls, d.name ≠ "") ∧ (decls.map (·.name)).Nodup ∧ ∀ d ∈ decls, d.name ∉ taken := by
  -- on the declarations, with the names that those before them have taken
  induction decls generalizing taken with
  | nil => simp [checkNames]
  | cons d rest ih =>
    rw [checkNames]
    by_cases hempty : d.name = ""
    · simp [hempty]
    by_cases htaken : d.name ∈ taken
    · simp [hempty, htaken]
    -- the name of the first declaration is taken for those after it
    rw [if_neg hempty, if_neg htaken, ih, List.forall_mem_cons, List.forall_mem_cons,
      List.map_cons, List.nodup_cons]
    have hother : (∀ e ∈ rest, e.name ∉ d.name :: taken) ↔
        d.name ∉ rest.map (·.name) ∧ ∀ e ∈ rest, e.name ∉ taken := by
      simp only [List.mem_cons, not_or, List.mem_map, not_exists, not_and, ← forall_and]
    rw [hother]
    constructor
    · rintro ⟨hnamed, hdistinct, hnew, hfree⟩
      exact ⟨⟨hempty, hnamed⟩, ⟨hnew, hdistinct⟩, htaken, hfree⟩
    · rintro ⟨⟨_, hnamed⟩, ⟨hnew, hdistinct⟩, _, hfree⟩
      exact ⟨hnamed, hdistinct, hnew, hfree⟩

/-- Names that were checked are different from each other and from those that were taken. -/
private theorem nodup_of_checkNames {taken : List String} {decls : List TypeDecl}
    (h : checkNames taken decls = .ok ()) (htaken : taken.Nodup) :
    (taken ++ decls.map (·.name)).Nodup := by
  obtain ⟨_, hdistinct, hfree⟩ := checkNames_eq_ok_iff.mp h
  refine htaken.append hdistinct fun name hname hmem => ?_
  obtain ⟨d, hd, rfl⟩ := List.mem_map.mp hmem
  exact hfree d hd hname

variable {decls : List TypeDecl} {c : Catalog} {t u : TypeId} {d : TypeDef} {name : String}

/-- A catalog holds the built-in types, and after them what some declarations are resolved to. -/
def Resolves (decls : List TypeDecl) (c : Catalog) : Prop :=
  ∃ declared, c.types = (builtins ++ declared).toArray ∧
    List.Forall₂ (fun e d => resolveDecl (resolve (allNames decls)) e = .ok d) decls declared

/-- A catalog holds the built-in types and what its declarations were resolved to, and no name comes
twice. -/
theorem exists_declared_of_ofDecls (h : ofDecls decls = .ok c) :
    (allNames decls).Nodup ∧ Resolves decls c := by
  -- of the four steps, the first two say what the catalog is made of
  obtain ⟨_, hnames, h⟩ := bind_eq_ok.mp h
  obtain ⟨declared, hdecl, h⟩ := bind_eq_ok.mp h
  obtain ⟨_, _, h⟩ := bind_eq_ok.mp h
  obtain ⟨_, _, h⟩ := bind_eq_ok.mp h
  cases h
  exact ⟨nodup_of_checkNames hnames Scalar.names_nodup, declared, rfl, forall₂_of_mapM_eq_ok hdecl⟩

/-- The names of all types stand in the order of the types. -/
private theorem Resolves.allNames_eq (h : Resolves decls c) :
    allNames decls = c.types.toList.map (·.name) := by
  obtain ⟨declared, htypes, hdecl⟩ := h
  -- resolving a declaration keeps its name
  have hnames : declared.map (·.name) = decls.map (·.name) := by
    rw [← List.forall₂_eq_eq_eq, List.forall₂_map_left_iff, List.forall₂_map_right_iff]
    exact (hdecl.imp fun _ _ he => (matches_of_resolveDecl he).name).flip.imp fun _ _ he => he.symm
  rw [htypes, List.map_append, hnames]
  rfl

/-- Every type is a built-in one, or what a declaration was resolved to. -/
theorem Resolves.exists_decl (h : Resolves decls c) (hd : c.get? t = some d) :
    (∃ s, d = .ofScalar s) ∨ ∃ e ∈ decls, e.Matches (Stands (allNames decls)) d := by
  obtain ⟨declared, htypes, hdecl⟩ := h
  rw [get?, htypes, List.getElem?_toArray] at hd
  -- the place is among the built-in types, or among the declarations
  cases List.mem_append.mp (List.mem_of_getElem? hd) with
  | inl hmem =>
    obtain ⟨s, _, rfl⟩ := List.mem_map.mp hmem
    exact .inl ⟨s, rfl⟩
  | inr hmem =>
    obtain ⟨e, he, hresolve⟩ := exists_of_forall₂_right hdecl hmem
    exact .inr ⟨e, he, matches_of_resolveDecl hresolve⟩

/-- The same for a catalog that was made. -/
private theorem allNames_eq (h : ofDecls decls = .ok c) :
    allNames decls = c.types.toList.map (·.name) :=
  (exists_declared_of_ofDecls h).2.allNames_eq

/-- The type behind a handle goes under a name. -/
def Names (c : Catalog) (name : String) (t : TypeId) : Prop :=
  ∃ d, c.get? t = some d ∧ d.name = name

/-- The names of a catalog stand in the order of its types. -/
theorem Resolves.names_iff (h : Resolves decls c) :
    c.Names name t ↔ Stands (allNames decls) name t := by
  rw [Stands, h.allNames_eq, List.getElem?_map, Option.map_eq_some_iff, Array.getElem?_toList]
  rfl

/-- The same for a catalog that was made. -/
theorem names_iff (h : ofDecls decls = .ok c) :
    c.Names name t ↔ Stands (allNames decls) name t :=
  (exists_declared_of_ofDecls h).2.names_iff

/-- A type goes under one name only. -/
private theorem Names.eq {other : String} (hname : c.Names name t) (hother : c.Names other t) :
    name = other := by
  obtain ⟨d, hd, rfl⟩ := hname
  obtain ⟨d', hd', rfl⟩ := hother
  rw [Option.some.inj (hd.symm.trans hd')]

/-- A name belongs to one type only. -/
theorem Names.unique (h : ofDecls decls = .ok c) (ht : c.Names name t) (hu : c.Names name u) :
    t = u := by
  -- both handles are the place of the name, and it has only one
  rw [names_iff h, Stands] at ht hu
  have hlt := (List.getElem?_eq_some_iff.mp ht).1
  have hindex := (List.getElem?_inj hlt (exists_declared_of_ofDecls h).1).mp (ht.trans hu.symm)
  cases t
  cases u
  exact congrArg TypeId.mk hindex

/-- Every name is looked up to the type that it belongs to. -/
theorem exists_lookup (h : ofDecls decls = .ok c) (hname : name ∈ allNames decls) :
    ∃ t, c.lookup name = some t ∧ c.Names name t := by
  rw [allNames_eq h] at hname
  obtain ⟨d, hd, rfl⟩ := List.mem_map.mp hname
  -- searching the array is searching the list of its entries
  rw [lookup, show c.types.findIdx? (·.name = d.name) = c.types.toList.findIdx? (·.name = d.name)
    from List.findIdx?_toArray _ _]
  cases hfind : c.types.toList.findIdx? (·.name = d.name) with
  | none =>
    -- the type itself goes under the name
    have hne := List.findIdx?_eq_none_iff.mp hfind d hd
    exact absurd rfl (of_decide_eq_false hne)
  | some i =>
    obtain ⟨hlt, hi, _⟩ := List.findIdx?_eq_some_iff_getElem.mp hfind
    exact ⟨⟨i⟩, rfl, c.types.toList[i], Array.getElem?_eq_getElem hlt, of_decide_eq_true hi⟩

/-- A built-in type stands at its place. -/
theorem get?_scalar (h : ofDecls decls = .ok c) (s : Scalar) :
    c.get? (scalar s) = some (.ofScalar s) := by
  obtain ⟨_, declared, htypes, _⟩ := exists_declared_of_ofDecls h
  rw [get?, htypes, List.getElem?_toArray]
  show (Scalar.all.map TypeDef.ofScalar ++ declared)[s.index]? = _
  -- among the built-in types, a scalar stands at its index
  have hplace : (Scalar.all.map TypeDef.ofScalar)[s.index]? = some (.ofScalar s) := by
    rw [List.getElem?_map, s.all_getElem?_index]
    rfl
  rw [List.getElem?_append_left (List.getElem?_eq_some_iff.mp hplace).1, hplace]

/-- Every declaration is resolved to a type of the catalog. -/
theorem exists_get?_of_mem (h : ofDecls decls = .ok c) {e : TypeDecl} (he : e ∈ decls) :
    ∃ t d, c.get? t = some d ∧ e.Matches (Stands (allNames decls)) d := by
  obtain ⟨_, declared, htypes, hdecl⟩ := exists_declared_of_ofDecls h
  obtain ⟨d, hd, hresolve⟩ := exists_of_forall₂_left hdecl he
  -- built-in types come first, so the place in the catalog is further on
  obtain ⟨i, hi⟩ := List.getElem?_of_mem (List.mem_append_right builtins hd)
  refine ⟨⟨i⟩, d, ?_, matches_of_resolveDecl hresolve⟩
  rw [get?, htypes, List.getElem?_toArray, hi]

/-! ## Catalogs with declarations in common -/

/-- More declarations have more names. -/
theorem allNames_subset {decls' : List TypeDecl} (hsub : decls ⊆ decls') :
    allNames decls ⊆ allNames decls' := by
  have hdeclared := List.map_subset (·.name) hsub
  exact List.append_subset.mpr ⟨List.subset_append_left _ _,
    List.Subset.trans hdeclared (List.subset_append_right _ _)⟩

/-- Handles of two catalogs are alike if their types go under one name. -/
def Alike (c c' : Catalog) (t t' : TypeId) : Prop := ∃ name, c.Names name t ∧ c'.Names name t'

/-- Types that are alike say the same, if all declarations of the first catalog belong to the
second. -/
theorem Alike.matches {decls' : List TypeDecl} {c' : Catalog} {t' : TypeId}
    (h : ofDecls decls = .ok c) (h' : ofDecls decls' = .ok c') (hsub : decls ⊆ decls')
    (ht : Alike c c' t t') :
    ∃ d d', c.get? t = some d ∧ c'.get? t' = some d' ∧ d.Matches (Alike c c') d' := by
  obtain ⟨name, ⟨d, hd, hname⟩, ht'⟩ := ht
  rcases (exists_declared_of_ofDecls h).2.exists_decl hd with ⟨s, rfl⟩ | ⟨e, he, hmatches⟩
  · -- built-in types are in every catalog
    have hscalar := get?_scalar h' s
    obtain rfl := ht'.unique h' ⟨_, hscalar, hname⟩
    exact ⟨_, _, hd, hscalar, TypeDef.matches_ofScalar _ s⟩
  · -- the second catalog resolves the same declaration
    obtain ⟨u, d', hd', hmatches'⟩ := exists_get?_of_mem h' (hsub he)
    obtain rfl := ht'.unique h' ⟨d', hd', by rw [← hmatches'.name, hmatches.name, hname]⟩
    refine ⟨d, d', hd, hd', hmatches.join (fun n v v' hv hv' => ?_) hmatches'⟩
    exact ⟨n, (names_iff h).mpr hv, (names_iff h').mpr hv'⟩

/-- A type is alike to one type only, and no other is alike to that. -/
theorem Alike.eq_iff {decls' : List TypeDecl} {c' : Catalog} {t' u' : TypeId}
    (h : ofDecls decls = .ok c) (h' : ofDecls decls' = .ok c') (ht : Alike c c' t t')
    (hu : Alike c c' u u') : t = u ↔ t' = u' := by
  obtain ⟨name, hname, hname'⟩ := ht
  obtain ⟨other, hother, hother'⟩ := hu
  constructor
  -- one handle has one name, and in the other catalog the name has one handle
  · rintro rfl
    obtain rfl := hname.eq hother
    exact hname'.unique h' hother'
  · rintro rfl
    obtain rfl := hname'.eq hother'
    exact hname.unique h hother

end Catalog

end Schemata
