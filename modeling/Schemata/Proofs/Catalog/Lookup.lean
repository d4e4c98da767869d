import Schemata.Proofs.Catalog.Accepted

/-!
# Names and handles of a catalog

Handles are given out while names are collected, and used while declarations are resolved, in two
passes over one list.  The two agree: the type of a declaration stands at its place behind the
built-in types, a name is looked up to the type that goes under it, and wherever a declaration
mentions a name, its type stores the handle of the type with that name.

## Key results

- `isLastSegment_lastSegment`: the short name of a type that declares none
- `lookup_eq_some_iff`: which handle a name is looked up to
- `exists_index`: the index of names and the catalog find the same
- `Resolves.exists_get?`: the type of the declaration at a place
- `ofDecls_holds`: what a catalog holds
-/

namespace Schemata

/-! ## The end of a qualified name -/

/-- A separator of qualified names. -/
def IsSeparator (ch : Char) : Prop := ch = '.' ∨ ch = '$'

/-- `s` is what follows the last separator of `qualified`, or all of it if there is none. -/
structure IsLastSegment (qualified s : String) : Prop where
  plain : ∀ ch ∈ s.toList, ¬ IsSeparator ch
  ends : s = qualified ∨
    ∃ before separator, IsSeparator separator ∧
      qualified.toList = before ++ separator :: s.toList

/-- The last segment of a name is what it is taken to be. -/
theorem isLastSegment_lastSegment (qualified : String) :
    IsLastSegment qualified (TypeDecl.lastSegment qualified) := by
  let plain : Char → Bool := fun ch => ch ≠ '.' && ch ≠ '$'
  have hplain : ∀ ch, plain ch = true ↔ ¬ IsSeparator ch := by simp [plain, IsSeparator]
  have hsegment : (TypeDecl.lastSegment qualified).toList =
      (qualified.toList.reverse.takeWhile plain).reverse := String.toList_ofList
  -- read backwards, the name is the last segment and then the rest
  have hsplit : qualified.toList = (qualified.toList.reverse.dropWhile plain).reverse ++
      (TypeDecl.lastSegment qualified).toList := by
    rw [hsegment, ← List.reverse_append, List.takeWhile_append_dropWhile, List.reverse_reverse]
  refine ⟨fun ch hch => ?_, ?_⟩
  -- the segment was taken while no separator came
  · rw [hsegment, List.mem_reverse] at hch
    exact (hplain ch).mp (List.all_eq_true.mp List.all_takeWhile ch hch)
  -- with nothing left, the whole name is the segment; otherwise what is left ends in a separator
  · cases hrest : qualified.toList.reverse.dropWhile plain with
    | nil =>
      left
      rw [hrest, List.reverse_nil, List.nil_append] at hsplit
      exact String.toList_injective hsplit.symm
    | cons separator before =>
      right
      rw [hrest, List.reverse_cons, List.append_assoc] at hsplit
      refine ⟨before.reverse, separator, ?_, hsplit⟩
      -- a character that is no separator would belong to the segment
      have hstop := List.head_dropWhile_not plain (l := qualified.toList.reverse) (by simp [hrest])
      simp only [hrest, List.head_cons] at hstop
      by_contra hnot
      rw [(hplain separator).mpr hnot] at hstop
      cases hstop

namespace Catalog

variable {decls : List TypeDecl} {c : Catalog}

/-! ## Handles and names -/

/-- A name is looked up to a type that goes under it, whatever the catalog. -/
private theorem names_of_lookup {name : String} {t : TypeId} (h : c.lookup name = some t) :
    c.Names name t := by
  obtain ⟨i, hi, rfl⟩ := Option.map_eq_some_iff.mp h
  obtain ⟨hlt, hname, _⟩ := Array.findIdx?_eq_some_iff_getElem.mp hi
  exact ⟨c.types[i], Array.getElem?_eq_getElem hlt, of_decide_eq_true hname⟩

/-- In a catalog that was made, a name is looked up to the type that goes under it, and to no other.
-/
theorem lookup_eq_some_iff (h : ofDecls decls = .ok c) (name : String) (t : TypeId) :
    c.lookup name = some t ↔ c.Names name t :=
  ⟨names_of_lookup, lookup_of_names h⟩

/-- Beside a catalog stands an index that finds what is looked up in the catalog. -/
theorem exists_index (h : ofDecls decls = .ok c) :
    ∃ index, assemble decls = .ok (c, index) ∧ ∀ name, index.lookup name = c.lookup name := by
  obtain ⟨⟨c, index⟩, hassembled, rfl⟩ := map_eq_ok.mp ((assemble_map_fst decls).trans h)
  refine ⟨index, hassembled, fun name => Option.ext fun t => ?_⟩
  -- both find the place of the name among the names of all types
  rw [aligned_of_assemble hassembled name t, lookup_eq_some_iff h, names_iff h]

/-- The built-in types come first, then one type for each declaration. -/
private theorem Resolves.size_eq (h : Resolves decls c) :
    c.size = Scalar.all.length + decls.length := by
  obtain ⟨declared, htypes, hdecl⟩ := h
  simp [size, htypes, builtins, hdecl.length_eq]

/-- The type of a declaration has the place of the declaration, behind the built-in types, and says
the same, with handles that stand for the names. -/
theorem Resolves.exists_get? (h : Resolves decls c) {i : Nat} {e : TypeDecl}
    (he : decls[i]? = some e) :
    ∃ d, c.get? ⟨Scalar.all.length + i⟩ = some d ∧ e.Matches c.Names d := by
  -- a handle that stands for a name belongs to the type with that name
  have hstands : Stands (allNames decls) = c.Names := by
    funext name t
    exact propext h.names_iff.symm
  obtain ⟨declared, htypes, hdecl⟩ := h
  obtain ⟨hlt, rfl⟩ := List.getElem?_eq_some_iff.mp he
  obtain ⟨hlength, hresolve⟩ := List.forall₂_iff_get.mp hdecl
  have hlt' : i < declared.length := hlength ▸ hlt
  refine ⟨declared[i], ?_, hstands ▸ matches_of_resolveDecl (hresolve i hlt hlt')⟩
  have hbuiltins : builtins.length = Scalar.all.length := List.length_map _
  rw [get?, htypes, List.getElem?_toArray]
  show (builtins ++ declared)[Scalar.all.length + i]? = some declared[i]
  -- the place lies behind the built-in types
  rw [← hbuiltins, List.getElem?_append_right (by omega)]
  simp [hlt']

/-! ## What a catalog holds -/

/-- A catalog holds the built-in types and what was declared. -/
structure Holds (decls : List TypeDecl) (c : Catalog) : Prop where
  size : c.size = Scalar.all.length + decls.length
  /-- A name is looked up to the one type that goes under it, and any other text to none. -/
  lookup_iff : ∀ name t, c.lookup name = some t ↔ ∃ d, c.get? t = some d ∧ d.name = name
  builtin : ∀ s : Scalar, c.lookup s.name = some (scalar s)
  /-- The index that was filled while the catalog was assembled finds the same. -/
  index : ∃ index, assemble decls = .ok (c, index) ∧ ∀ name, index.lookup name = c.lookup name
  /-- The type of a declaration says the same as it, in the same order, of the types that go under
  the names that it mentions. -/
  declared : ∀ i e, decls[i]? = some e →
    ∃ d, c.get? ⟨Scalar.all.length + i⟩ = some d ∧
      e.Matches (fun name t => c.Has t ∧ c.name t = name) d
  /-- The short name is the declared one, or else the end of the qualified name. -/
  simpleName : ∀ i e, decls[i]? = some e →
    (∀ s ∈ e.simpleName, c.simpleName ⟨Scalar.all.length + i⟩ = s) ∧
    (e.simpleName = none → IsLastSegment e.name (c.simpleName ⟨Scalar.all.length + i⟩))

/-- A name that a type goes under is the name of a type of the catalog. -/
private theorem names_iff_has {name : String} {t : TypeId} :
    c.Names name t ↔ c.Has t ∧ c.name t = name := by
  refine ⟨fun h => ⟨h.has, name_of_names h⟩, fun ⟨ht, hname⟩ => ?_⟩
  obtain ⟨d, hd⟩ := exists_get?_of_has ht
  rw [Catalog.name, hd] at hname
  exact ⟨d, hd, hname⟩

/-- The catalog of a list of declarations holds the built-in types and what is declared: nothing is
lost, no two names are mixed up, and every handle that a type stores is the handle of the type that
the declaration mentions there. -/
theorem ofDecls_holds (h : ofDecls decls = .ok c) : Holds decls c := by
  have hresolves := (exists_declared_of_ofDecls h).2
  have hnames : (fun name t => c.Has t ∧ c.name t = name) = c.Names := by
    funext name t
    exact propext names_iff_has.symm
  refine ⟨hresolves.size_eq, lookup_eq_some_iff h, fun s => ?_, exists_index h,
    fun i e he => ?_, fun i e he => ?_⟩
  · exact lookup_of_names h ⟨_, get?_scalar h s, rfl⟩
  · rw [hnames]
    exact hresolves.exists_get? he
  -- the short name of the type is that of the declaration
  · obtain ⟨d, hd, hmatches⟩ := hresolves.exists_get? he
    have hshort : c.simpleName ⟨Scalar.all.length + i⟩ = e.shortName := by
      rw [Catalog.simpleName, hd, hmatches.simpleName]
      rfl
    rw [hshort]
    constructor
    · intro s hs
      rw [TypeDecl.shortName, Option.mem_def.mp hs, Option.getD_some]
    · intro hnone
      rw [TypeDecl.shortName, hnone, Option.getD_none]
      exact isLastSegment_lastSegment e.name

/-- Types that mention others, declared before these and after them. -/
def orderDecls : List TypeDecl :=
  [((TypeDecl.record "shop.Order$Line").extending "shop.Entity").withMember
      { name := "item", type := "Item", visibility := .owner, isFinal := true },
    .enumeration "Item" ["BOOK", "PEN"],
    .collection "shop.Lines" (some "shop.Order$Line"),
    (TypeDecl.record "shop.Entity").called "Thing"]

/-- The first type is known as the line of an order, and mentions the second and the last one. -/
theorem ofDecls_holds_order :
    ∃ c, ofDecls orderDecls = .ok c ∧ c.size = 16 ∧ c.lookup "shop.Entity" = some ⟨15⟩ ∧
      c.superclass? ⟨12⟩ = some ⟨15⟩ ∧ c.element? ⟨14⟩ = some ⟨12⟩ ∧
      IsLastSegment "shop.Order$Line" (c.simpleName ⟨12⟩) ∧ c.simpleName ⟨12⟩ = "Line" ∧
      c.simpleName ⟨15⟩ = "Thing" := by
  obtain ⟨c, hc, hsuper, helement, hentity, hline⟩ : ∃ c, ofDecls orderDecls = .ok c ∧
      c.superclass? ⟨12⟩ = some ⟨15⟩ ∧ c.element? ⟨14⟩ = some ⟨12⟩ ∧
      ((c.get? ⟨15⟩).map (·.name)) = some "shop.Entity" ∧ c.simpleName ⟨12⟩ = "Line" :=
    ⟨_, rfl, by decide +kernel, by decide +kernel, by decide +kernel, by decide +kernel⟩
  have hholds := ofDecls_holds hc
  have hlookup := (hholds.lookup_iff "shop.Entity" ⟨15⟩).mpr (Option.map_eq_some_iff.mp hentity)
  exact ⟨c, hc, hholds.size, hlookup, hsuper, helement, (hholds.simpleName 0 _ rfl).2 rfl, hline,
    (hholds.simpleName 3 _ rfl).1 "Thing" rfl⟩

end Catalog

end Schemata
