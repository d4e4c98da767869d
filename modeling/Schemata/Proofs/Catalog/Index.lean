import Mathlib.Data.Finmap
import Schemata.Proofs.Catalog.Declared
import Schemata.Proofs.Catalog.Visited

/-!
# The index of names

A catalog can be assembled with an index, a map from names to handles, that is filled before any
declaration is resolved and is asked whenever one mentions a name.  Handles are places in the list
of all names, so the index and the list have to stay in step while names are entered.  With chains
that are followed with a memory, that is another way from declarations to a catalog, and it comes to
the same catalog or the same error.

## Key results

- `Aligned.insert`: entering a new name keeps the index in step with the list of names
- `Aligned.find_eq`: an index in step with a list finds what searching the list finds
- `assemble_map_fst`: both ways from declarations to a catalog come to the same
-/

namespace Schemata

/-- The handles of types, under their names. -/
abbrev NameIndex := Finmap fun _ : String => TypeId

namespace NameIndex

/-- The index of the built-in types, entered one after the other with their places. -/
def builtin : NameIndex :=
  Scalar.all.zipIdx.foldl (fun index p => index.insert p.1.name ⟨p.2⟩) ∅

/-- Enters the names of declarations, the first of which has the given place.  A name is entered
first, and then it is looked at what stood under it before. -/
def enter (index : NameIndex) (place : Nat) : List TypeDecl → Except CatalogError NameIndex
  | [] => .ok index
  | d :: rest =>
    if d.name = "" then .error .emptyName
    else
      let previous := index.lookup d.name
      let index := index.insert d.name ⟨place⟩
      if previous.isSome then .error (.repeatedName d.name)
      else enter index (place + 1) rest

/-- The index of the built-in types and of declarations. -/
def ofDecls (decls : List TypeDecl) : Except CatalogError NameIndex :=
  builtin.enter Scalar.all.length decls

/-- Asks the index for a name. -/
def find (index : NameIndex) (name : String) (mention : Mention) : Except CatalogError TypeId :=
  match index.lookup name with
  | some t => .ok t
  | none => .error (.undeclared name mention)

/-! ## Indexes in step with a list -/

/-- The handle under a name is the place of the name in a list. -/
def Aligned (index : NameIndex) (names : List String) : Prop :=
  ∀ name t, index.lookup name = some t ↔ Catalog.Stands names name t

variable {index : NameIndex} {names taken : List String} {name : String} {decls : List TypeDecl}

namespace Aligned

/-- An empty index is in step with an empty list. -/
private theorem empty : Aligned ∅ [] := by
  intro name t
  simp [Catalog.Stands]

/-- Something stands under a name exactly if the name is in the list. -/
private theorem isSome_iff (h : Aligned index names) :
    (index.lookup name).isSome ↔ name ∈ names := by
  rw [Option.isSome_iff_exists, List.mem_iff_getElem?]
  constructor
  · rintro ⟨t, ht⟩
    exact ⟨t.index, (h name t).mp ht⟩
  · rintro ⟨i, hi⟩
    exact ⟨⟨i⟩, (h name ⟨i⟩).mpr hi⟩

/-- A new name is entered with the place behind all others. -/
theorem insert (h : Aligned index names) (hnew : name ∉ names) :
    Aligned (Finmap.insert name ⟨names.length⟩ index) (names ++ [name]) := by
  intro other t
  rw [Catalog.Stands, List.getElem?_append]
  by_cases hother : other = name
  · subst hother
    rw [Finmap.lookup_insert]
    -- no place of the list before holds the name
    split
    · rename_i hlt
      refine ⟨fun he => ?_, fun he => absurd (List.mem_of_getElem? he) hnew⟩
      cases he
      exact absurd hlt (Nat.lt_irrefl _)
    · rename_i hge
      obtain ⟨i⟩ := t
      simp only [Option.some.injEq, TypeId.mk.injEq, List.getElem?_singleton] at hge ⊢
      by_cases hi : i - names.length = 0 <;> simp [hi] <;> omega
  -- what stands under other names stays, and the new place holds none of them
  · rw [Finmap.lookup_insert_of_ne _ hother, h other t, Catalog.Stands]
    split
    · exact Iff.rfl
    · rename_i hge
      rw [List.getElem?_eq_none (by omega), List.getElem?_singleton]
      split <;> simp [Ne.symm hother]

/-- An index in step with a list finds what searching the list finds. -/
theorem find_eq (h : Aligned index names) : index.find = Catalog.resolve names := by
  funext name mention
  rw [find, Catalog.resolve]
  -- both searches find the first place of the name, or both find none
  cases hfind : names.findIdx? (· = name) with
  | none =>
    have hnone : index.lookup name = none := by
      rw [← Option.not_isSome_iff_eq_none, h.isSome_iff]
      intro hmem
      exact absurd rfl (of_decide_eq_false (List.findIdx?_eq_none_iff.mp hfind name hmem))
    rw [hnone]
  | some i =>
    obtain ⟨hlt, hi, _⟩ := List.findIdx?_eq_some_iff_getElem.mp hfind
    have hstands : Catalog.Stands names name ⟨i⟩ := by
      rw [Catalog.Stands, List.getElem?_eq_getElem hlt, of_decide_eq_true hi]
    rw [(h name ⟨i⟩).mpr hstands]

/-! ## Filling an index -/

/-- Entering built-in types with new names keeps the index in step. -/
private theorem foldl_insert {scalars : List Scalar} (h : Aligned index names)
    (hnodup : (names ++ scalars.map Scalar.name).Nodup) :
    Aligned ((scalars.zipIdx names.length).foldl
      (fun index p => Finmap.insert p.1.name ⟨p.2⟩ index) index)
      (names ++ scalars.map Scalar.name) := by
  -- on the built-in types that are left, with the next place
  induction scalars generalizing index names with
  | nil => simpa using h
  | cons s rest ih =>
    have hnew : s.name ∉ names := by
      intro hmem
      exact List.disjoint_of_nodup_append hnodup hmem List.mem_cons_self
    have hrest := ih (h.insert hnew) (by simpa using hnodup)
    simpa using hrest

/-- The index of the built-in types is in step with their names. -/
private theorem builtin : Aligned builtin (Scalar.all.map Scalar.name) :=
  Aligned.empty.foldl_insert Scalar.names_nodup

/-- Entering a declaration with a new name goes on to those after it. -/
private theorem enter_of_notMem (h : Aligned index names) {d : TypeDecl} {rest : List TypeDecl}
    (hnamed : d.name ≠ "") (hnew : d.name ∉ names) :
    index.enter names.length (d :: rest) =
      NameIndex.enter (Finmap.insert d.name ⟨names.length⟩ index) (names ++ [d.name]).length
        rest := by
  have hprevious : (index.lookup d.name).isSome = false :=
    Bool.eq_false_iff.mpr fun hsome => hnew (h.isSome_iff.mp hsome)
  rw [enter, if_neg hnamed, List.length_append, List.length_singleton]
  simp only [hprevious, Bool.false_eq_true, if_false]

/-- Entering declarations fails where checking their names fails, and with the same error. -/
private theorem enter_map (h : Aligned index names) (htaken : ∀ name, name ∈ taken ↔ name ∈ names) :
    (index.enter names.length decls).map (fun _ => ()) = Catalog.checkNames taken decls := by
  -- on the declarations, with the index that those before them have left
  induction decls generalizing index names taken with
  | nil => rfl
  | cons d rest ih =>
    rw [Catalog.checkNames]
    by_cases hempty : d.name = ""
    -- without a name, both stop with the same error
    · rw [enter, if_pos hempty, if_pos hempty]
      rfl
    by_cases hmem : d.name ∈ names
    -- a name that was there before is refused by both
    · rw [enter, if_neg hempty, if_neg hempty, if_pos ((htaken d.name).mpr hmem)]
      simp only [h.isSome_iff.mpr hmem, if_true]
      rfl
    · rw [if_neg hempty, if_neg fun ht => hmem ((htaken d.name).mp ht),
        h.enter_of_notMem hempty hmem]
      refine ih (h.insert hmem) fun name => ?_
      rw [List.mem_cons, List.mem_append, List.mem_singleton, htaken, or_comm]

/-- An index that was filled is in step with all names. -/
private theorem of_enter (h : Aligned index names) {index' : NameIndex}
    (henter : index.enter names.length decls = .ok index') :
    Aligned index' (names ++ decls.map (·.name)) := by
  -- on the declarations, with the index that those before them have left
  induction decls generalizing index names with
  | nil =>
    cases henter
    simpa using h
  | cons d rest ih =>
    by_cases hempty : d.name = ""
    · rw [enter, if_pos hempty] at henter
      cases henter
    by_cases hmem : d.name ∈ names
    · rw [enter, if_neg hempty] at henter
      simp only [h.isSome_iff.mpr hmem, if_true] at henter
      cases henter
    -- only a new name is entered and passed over
    · rw [h.enter_of_notMem hempty hmem] at henter
      have hrest := ih (h.insert hmem) henter
      rwa [List.append_assoc] at hrest

end Aligned

/-- Filling an index fails where checking names fails, and with the same error. -/
private theorem ofDecls_map (decls : List TypeDecl) :
    (ofDecls decls).map (fun _ => ()) =
      Catalog.checkNames (Scalar.all.map Scalar.name) decls :=
  Aligned.builtin.enter_map fun _ => Iff.rfl

/-- The index of declarations is in step with the names of all types. -/
private theorem aligned_of_ofDecls (h : ofDecls decls = .ok index) :
    Aligned index (Catalog.allNames decls) :=
  Aligned.builtin.of_enter h

end NameIndex

namespace Catalog

/-- The catalog of a list of declarations, with its index: names are entered in the index, mentions
are resolved by it, and chains are followed with a memory of the types that were met. -/
def assemble (decls : List TypeDecl) : Except CatalogError (Catalog × NameIndex) := do
  let index ← NameIndex.ofDecls decls
  let declared ← decls.mapM (resolveDecl index.find)
  let catalog : Catalog := ⟨(builtins ++ declared).toArray⟩
  catalog.checkVisits (·.superclass) .cyclicSuperclasses catalog.ids
  catalog.checkVisits (·.shape.element?) .cyclicElements catalog.ids
  return (catalog, index)

/-- Assembling a catalog comes to the catalog of the declarations, or to the same error. -/
theorem assemble_map_fst (decls : List TypeDecl) :
    (assemble decls).map (·.1) = ofDecls decls := by
  -- both kinds of chains are checked alike, whichever way they are followed
  have hsuperclasses : ∀ c : Catalog, c.checkVisits (·.superclass) .cyclicSuperclasses c.ids =
      checkChains c c.superclass? .cyclicSuperclasses := fun c => c.checkVisits_eq _ _
  have helements : ∀ c : Catalog, c.checkVisits (·.shape.element?) .cyclicElements c.ids =
      checkChains c c.element? .cyclicElements := fun c => c.checkVisits_eq _ _
  rw [assemble, ofDecls, ← NameIndex.ofDecls_map]
  cases hindex : NameIndex.ofDecls decls with
  | error e => rfl
  | ok index =>
    have hfind := (NameIndex.aligned_of_ofDecls hindex).find_eq
    -- with the index, each declaration is resolved to what searching the names gives
    simp only [bind, Except.bind, Except.map, hfind, hsuperclasses, helements]
    -- what is left differs in the index only, which is handed over besides
    cases decls.mapM (resolveDecl (resolve (allNames decls))) with
    | error e => rfl
    | ok declared =>
      dsimp only
      generalize (⟨(builtins ++ declared).toArray⟩ : Catalog) = c
      cases checkChains c c.superclass? .cyclicSuperclasses with
      | error e => rfl
      | ok _ =>
        dsimp only
        cases checkChains c c.element? .cyclicElements <;> rfl

/-- The index of a catalog that was assembled is in step with the names of its types. -/
theorem aligned_of_assemble {decls : List TypeDecl} {c : Catalog} {index : NameIndex}
    (h : assemble decls = .ok (c, index)) : index.Aligned (allNames decls) := by
  obtain ⟨_, hindex, h⟩ := bind_eq_ok.mp h
  obtain ⟨_, _, h⟩ := bind_eq_ok.mp h
  obtain ⟨_, _, h⟩ := bind_eq_ok.mp h
  obtain ⟨_, _, h⟩ := bind_eq_ok.mp h
  cases h
  exact NameIndex.aligned_of_ofDecls hindex

end Catalog

end Schemata
