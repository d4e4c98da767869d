import Schemata.Document.Render
import Schemata.Proofs.Session.Lockstep
import Schemata.Proofs.Session.Order
import Schemata.Proofs.Walk.Renamed

/-!
# Compiling over catalogs that agree

Sessions on catalogs that agree are in lockstep and stay renamed copies of each other, and their
documents are written alike.  So neither the order of declarations nor declarations that
are not needed can be seen in what is written, or in the error.

## Key results

- `Renamed.render_eq`: what is written for renamed copies
- `compileByName_of_subset`: more declarations, in another order, make no difference
-/

namespace Schemata

namespace Session

/-- Sessions on catalogs that agree, with the same roots and the same nodes. -/
structure Renamed (R : TypeId → TypeId → Prop) (s s' : Session) : Prop where
  lockstep : Walk.Lockstep s.setting s'.setting R (Build.Renamed R)
  refPrefix : s.compiler.options.refPrefix = s'.compiler.options.refPrefix
  strategies : s.compiler.strategies = Strategy.standard
  strategies' : s'.compiler.strategies = Strategy.standard
  build : s.build.Renamed R s'.build
  roots : s.roots = s'.roots

namespace Renamed

variable {R : TypeId → TypeId → Prop} {s s' : Session}

/-- Renamed copies are in lockstep. -/
private theorem inStep (h : Renamed R s s') : Lockstep R (Build.Renamed R) s s' :=
  ⟨h.lockstep, h.strategies, h.strategies', h.build, h.roots⟩

/-- The documents of both sessions are written alike. -/
theorem render_eq (h : Renamed R s s') : s.document.render = s'.document.render := by
  have hcomponents : s.document.components = s'.document.components := by
    -- components are compared entry by entry: same node, and the same name for both types
    rw [← List.forall₂_eq_eq_eq]
    refine List.rel_map (fun e e' he => ?_) h.build.completed
    have hname : s'.catalog.simpleName e'.1 = s.catalog.simpleName e.1 :=
      h.lockstep.catalog.simpleName he.1
    simp only [componentOf, h.build.arena, he.2, hname]
  have harena : s.document.arena = s'.document.arena := h.build.arena
  have hroots : s.document.roots = s'.document.roots := h.roots
  have hprefix : s.document.refPrefix = s'.document.refPrefix := h.refPrefix
  -- the completed types are not written
  show Document.render ⟨s.document.arena, s.document.roots, s.document.components, _,
    s.document.refPrefix⟩ = _
  rw [harena, hroots, hcomponents, hprefix]
  rfl

end Renamed

/-! ## Roots by name -/

variable {R : TypeId → TypeId → Prop} {options : Options} {c c' : Catalog} {ts ts' : List TypeId}

/-- A session that begins on a catalog is a renamed copy of one that begins on a catalog that agrees
with it. -/
private theorem renamed_session (h : Catalog.Agrees R c c') (hc : c.Closed) (hc' : c'.Closed) :
    Renamed R (({ options } : Compiler).session c) (({ options } : Compiler).session c') where
  lockstep := Walk.lockstep_of_agrees h fun ht => FieldPolicy.accessible_matches h hc hc' ht
  refPrefix := rfl
  strategies := rfl
  strategies' := rfl
  build := Build.renamed_empty R
  roots := rfl

/-- Related roots of catalogs that agree give documents that are written alike, or fail with the
same error. -/
private theorem compileMany_of_agrees (h : Catalog.Agrees R c c') (hc : c.Closed) (hc' : c'.Closed)
    (hts : List.Forall₂ R ts ts') :
    (({ options } : Compiler).compileMany c ts).map Document.render =
      (({ options } : Compiler).compileMany c' ts').map Document.render := by
  have hbegin : Renamed R (({ options } : Compiler).session c)
      (({ options } : Compiler).session c') := renamed_session h hc hc'
  -- both compilations go in lockstep, and fail together or end together
  rcases hbegin.inStep.compileMany (hts.imp fun _ _ ht => .inl ht) with
    ⟨e, herror, herror'⟩ | ⟨hdoc, hdoc', hafter⟩
  · rw [herror, herror']
  -- the texts in front of names are options, which no root changes
  · have hunchanged : ∀ {d : Catalog} (us : List TypeId),
        ((({ options } : Compiler).session d).after us).compiler.options.refPrefix =
          options.refPrefix :=
      fun us => by rw [(after_setting _ us).2]; rfl
    have hrenamed : Renamed R ((({ options } : Compiler).session c).after ts)
        ((({ options } : Compiler).session c').after ts') :=
      ⟨hafter.walks, (hunchanged ts).trans (hunchanged ts').symm, hafter.strategies,
        hafter.strategies', hafter.build, hafter.roots⟩
    rw [hdoc, hdoc']
    exact congrArg Except.ok hrenamed.render_eq

/-- Names that a catalog declares are looked up to types that are alike in every catalog with its
declarations. -/
private theorem exists_require {decls decls' : List TypeDecl} (h : Catalog.ofDecls decls = .ok c)
    (h' : Catalog.ofDecls decls' = .ok c') (hsub : decls ⊆ decls') {names : List String}
    (hnames : ∀ name ∈ names, name ∈ Catalog.allNames decls) :
    ∃ ts ts', names.mapM c.require = .ok ts ∧ names.mapM c'.require = .ok ts' ∧
      List.Forall₂ (Catalog.Alike c c') ts ts' := by
  -- on the names, each of which both catalogs have
  induction names with
  | nil => exact ⟨[], [], rfl, rfl, .nil⟩
  | cons name rest ih =>
    have hname := hnames name List.mem_cons_self
    have hname' := Catalog.allNames_subset hsub hname
    obtain ⟨t, hlookup, ht⟩ := Catalog.exists_lookup h hname
    obtain ⟨t', hlookup', ht'⟩ := Catalog.exists_lookup h' hname'
    obtain ⟨ts, ts', hts, hts', halike⟩ :=
      ih fun other hother => hnames other (List.mem_cons_of_mem name hother)
    refine ⟨t :: ts, t' :: ts', ?_, ?_, .cons ⟨name, ht, ht'⟩ halike⟩
    · rw [List.mapM_cons, Catalog.require, hlookup, hts]
      rfl
    · rw [List.mapM_cons, Catalog.require, hlookup', hts']
      rfl

/-- What is written for roots that are given by name, or the error, depends neither on the order of
the declarations nor on declarations that the roots do not need. -/
theorem compileByName_of_subset (options : Options) {decls decls' : List TypeDecl}
    (h : Catalog.ofDecls decls = .ok c) (h' : Catalog.ofDecls decls' = .ok c')
    (hsub : decls ⊆ decls') {names : List String}
    (hnames : ∀ name ∈ names, name ∈ Catalog.allNames decls) :
    (({ options } : Compiler).compileByName c names).map Document.render =
      (({ options } : Compiler).compileByName c' names).map Document.render := by
  -- names become types first; from there on it is about related roots
  obtain ⟨ts, ts', hts, hts', halike⟩ := exists_require h h' hsub hnames
  rw [Compiler.compileByName, Compiler.compileByName, hts, hts']
  exact compileMany_of_agrees (Catalog.agrees_of_subset h h' hsub) (Catalog.closed_of_ofDecls h)
    (Catalog.closed_of_ofDecls h') halike

/-- The declarations of the shop in another order, among others. -/
def resortedDecls : List TypeDecl :=
  [.enumeration "shop.Color" ["red", "blue"], .array "shop.Colors" "shop.Color"] ++
    shopDecls.reverse ++ [(TypeDecl.record "Order").extending "shop.Order"]

/-- Orders and users come to the same schemas when the declarations are sorted in another way. -/
theorem compileByName_of_subset_resorted :
    ∃ c', Catalog.ofDecls shopDecls = .ok shopCatalog ∧ Catalog.ofDecls resortedDecls = .ok c' ∧
      shopDecls ⊆ resortedDecls ∧
      (∀ name ∈ ["shop.Orders", "trade.User", "int"], name ∈ Catalog.allNames shopDecls) ∧
      (({} : Compiler).compileByName shopCatalog ["shop.Orders", "trade.User", "int"]).map
          Document.render =
        (({} : Compiler).compileByName c' ["shop.Orders", "trade.User", "int"]).map
          Document.render := by
  -- the other catalog is accepted, and is not written out
  have hresorted : ∃ c', Catalog.ofDecls resortedDecls = .ok c' := ⟨_, rfl⟩
  obtain ⟨c', hc'⟩ := hresorted
  have hsub : shopDecls ⊆ resortedDecls := by decide +kernel
  have hnames : ∀ name ∈ ["shop.Orders", "trade.User", "int"],
      name ∈ Catalog.allNames shopDecls := by decide +kernel
  exact ⟨c', ofDecls_shopDecls, hc', hsub, hnames,
    compileByName_of_subset {} ofDecls_shopDecls hc' hsub hnames⟩

end Session

end Schemata
