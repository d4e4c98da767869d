import Schemata.Proofs.Session.Components
import Schemata.Proofs.Walk.Order

/-!
# The order of components

If no root fails, a session searches the catalog depth-first, root by root.  The components of its
document stand in the order in which the search finished them, and have the names that come of
asking for names in the order in which it entered them.

## Key results

- `moves_after`: compiling roots is a sequence of moves
- `compileRoots_search`: roots that all come to a node are searched
- `components_follow_search`: components and their names follow the search
-/

namespace Schemata

namespace Session

variable {s : Session} {done ts : List TypeId} {t : TypeId}

/-- A root leaves the setting as it was. -/
private theorem CompilesRoot.setting {r : Except CompileError NodeId × Session}
    (h : CompilesRoot s t r) : r.2.setting = s.setting := by
  obtain ⟨hcatalog, hcompiler⟩ := h.setting_eq
  rw [Session.setting, hcatalog, hcompiler, Session.setting]

/-- Compiling a root is a sequence of moves, whether it fails or not. -/
private theorem CompilesRoot.moves {r : Except CompileError NodeId × Session}
    (h : CompilesRoot s t r) (hb : s.build.Sound s.setting) :
    Relation.ReflTransGen (Walk.Move s.setting) s.build r.2.build := by
  cases h with
  | unknown => exact .refl
  -- the run makes the moves; a node or an error is only its outcome
  | ok ht hrun | failed ht hrun => exact hrun.moves hb trivial

/-- Compiling roots, also such as fail, is a sequence of moves. -/
theorem moves_after (h : s.Sound done) (ts : List TypeId) :
    Relation.ReflTransGen (Walk.Move s.setting) s.build (s.after ts).build := by
  induction ts generalizing s done with
  | nil => exact .refl
  | cons t ts ih =>
    have hroot := compilesRoot h.strategies t
    obtain ⟨_, hs'⟩ := h.of_compileRoot t
    have hrest := ih hs'
    rw [hroot.setting] at hrest
    exact (hroot.moves h.build).trans hrest

/-- Roots that all come to a node are searched one after the other. -/
theorem compileRoots_search (h : s.Sound done) (hc : s.catalog.Closed)
    (hpolicy : s.compiler.policy.Closed s.catalog)
    (hok : (Compiler.compileRoots s ts).1 = .ok ()) :
    ts.foldl (Search.visit s.compiler.policy s.catalog) s.build.search =
      (s.after ts).build.search := by
  -- roots are searched from the state that the earlier ones have left
  induction ts generalizing s done with
  | nil => rfl
  | cons t ts ih =>
    obtain ⟨id, s', hr, hroot, hok'⟩ := compileRoots_cons_ok h.strategies hok
    have hs' := h.of_ok hroot
    cases hroot with
    | ok ht hrun =>
      -- one root is one visit of the search
      have hsearch := hrun.search_eq hc hpolicy (Walk.Task.within_type ht) h.build trivial rfl
      have hrest := ih hs' hc hpolicy hok'
      rw [Session.after, hr, List.foldl_cons, ← hrest]
      exact congrArg (ts.foldl _) hsearch

/-- The components that come of a search, each with the name that its record was given when the
search entered it. -/
private theorem Sound.components_of_search (h : s.Sound done)
    (hnames : s.build.names = .ofRequests s.catalog s.build.search.entered) :
    s.document.components.map (fun p => some p.1) =
      s.build.search.finished.map
        (NameTable.ofRequests s.catalog s.build.search.entered).name? := by
  simp only [document, Build.search, Progress.completedTypes, List.map_map]
  -- both lists are in the order of completion, so it is enough to compare the names type by type
  refine List.map_congr_left ?_
  rintro ⟨t, id⟩ hmem
  obtain ⟨name, hname, hbody⟩ := h.build.recorded.node hmem
  rw [hnames] at hname
  simp only [Function.comp_apply, componentOf_of_body hbody]
  exact hname.symm

/-- If roots are compiled without a failure, the components of the document are those of the records
that a depth-first search of the roots meets, in the order in which it finishes them, and they have
the names that the records are given when they ask for one in the order in which it enters them. -/
theorem components_follow_search (options : Options) {decls : List TypeDecl} {c : Catalog}
    (hc : Catalog.ofDecls decls = .ok c) {roots : List TypeId} {doc : Document}
    (hdoc : ({ options } : Compiler).compileMany c roots = .ok doc) :
    let search := Search.ofRoots .accessible c roots
    doc.completed.map (·.1) = search.finished ∧
    doc.components.map (·.2) = doc.completed.map (·.2) ∧
    doc.components.map (fun p => some p.1) =
      search.finished.map (NameTable.ofRequests c search.entered).name? := by
  intro search
  have hclosed := Catalog.closed_of_ofDecls hc
  have hsound := sound_session .accessible options c
  have hs := hsound.after roots
  obtain ⟨hroots, _, rfl⟩ := compileMany_eq_ok rfl hdoc
  -- the walk and the search agree, and the empty build is the empty search
  have hsearch : search = ((({ options } : Compiler).session c).after roots).build.search :=
    compileRoots_search hsound hclosed (FieldPolicy.accessible_closed hclosed) hroots
  -- names are given by requests, in the order in which records are entered
  have hnames := Walk.names_eq_of_moves (moves_after hsound roots) hsound.build rfl
  have hcatalog := (after_setting (({ options } : Compiler).session c) roots).1
  have hcomponents := hs.components_of_search (by rw [hcatalog]; exact hnames)
  rw [hcatalog] at hcomponents
  rw [hsearch]
  exact ⟨rfl, components_eq _, hcomponents⟩

/-! ## A catalog with a cycle and a name that is taken -/

/-- A user has a collection of orders; an order leads back to its user, and to a user of another
kind, whose short name is the same. -/
def shopDecls : List TypeDecl :=
  [(TypeDecl.record "shop.User").withMember
      { name := "orders", type := "shop.Orders", visibility := .everyone },
    .collection "shop.Orders" (some "shop.Order"),
    ((TypeDecl.record "shop.Order").withMember
      { name := "buyer", type := "shop.User", visibility := .everyone }).withMember
      { name := "seller", type := "trade.User", visibility := .everyone },
    (TypeDecl.record "trade.User").withMember
      { name := "name", type := "string", visibility := .everyone }]

/-- The catalog of these declarations. -/
def shopCatalog : Catalog where
  types := (Catalog.builtins ++ shopTypes).toArray
where
  shopTypes : List TypeDef :=
    [{ name := "shop.User", simpleName := "User", shape := .record,
       members := [{ name := "orders", type := ⟨13⟩, visibility := .everyone }] },
     { name := "shop.Orders", simpleName := "Orders", shape := .collection (some ⟨14⟩) },
     { name := "shop.Order", simpleName := "Order", shape := .record,
       members := [{ name := "buyer", type := ⟨12⟩, visibility := .everyone },
         { name := "seller", type := ⟨15⟩, visibility := .everyone }] },
     { name := "trade.User", simpleName := "User", shape := .record,
       members := [{ name := "name", type := ⟨9⟩, visibility := .everyone }] }]

theorem ofDecls_shopDecls : Catalog.ofDecls shopDecls = .ok shopCatalog := by rfl

/-- A session on that catalog, after some roots. -/
abbrev shopSession (roots : List TypeId) : Session :=
  (({} : Compiler).session shopCatalog).after roots

/-- The order is entered first and finished last; the short name of the second user is taken. -/
theorem components_follow_search_shop :
    Catalog.ofDecls shopDecls = .ok shopCatalog ∧
    ({} : Compiler).compileMany shopCatalog [⟨13⟩, ⟨12⟩] =
      .ok (shopSession [⟨13⟩, ⟨12⟩]).document ∧
    (shopSession [⟨13⟩, ⟨12⟩]).document.completed.map (·.1) = [⟨12⟩, ⟨15⟩, ⟨14⟩] ∧
    (shopSession [⟨13⟩, ⟨12⟩]).document.components.map (fun p => some p.1) =
      [some "User", some "trade.User", some "Order"] := by
  have hmany : ({} : Compiler).compileMany shopCatalog [⟨13⟩, ⟨12⟩] =
      .ok (shopSession [⟨13⟩, ⟨12⟩]).document := by decide +kernel
  -- the search is evaluated on its own; what the compilation does follows
  have hsearch : Search.ofRoots .accessible shopCatalog [⟨13⟩, ⟨12⟩] =
      ⟨[⟨14⟩, ⟨12⟩, ⟨15⟩], [⟨12⟩, ⟨15⟩, ⟨14⟩]⟩ := by decide +kernel
  obtain ⟨htypes, _, hnames⟩ := components_follow_search {} ofDecls_shopDecls hmany
  rw [hsearch] at htypes hnames
  exact ⟨ofDecls_shopDecls, hmany, htypes, hnames.trans (by decide +kernel)⟩

end Session

end Schemata
