import Schemata.Proofs.Schema
import Schemata.Proofs.Session.Faithful
import Schemata.Proofs.Session.Limit
import Schemata.Proofs.Session.Order

/-!
# What is written for a document

If every record is named after its short name, what is written for a document depends on the
catalog, the roots and the order of the components only: which nodes were placeholders, and where
they stand, is not seen.  Without records of one short name, that is so for all roots, and the
components are those of the same records whenever the roots are the same.

## Key results

- `Sound.renderNode_eq` / `Sound.renderRoot_eq`: what is written for a component and for a root
- `Sound.render_eq`: what is written for a document
- `schemas_depend_on_root_set`: neither the order of roots nor repetition changes what is written
-/

namespace Schemata

/-- The target of a record that is named after its short name. -/
def Catalog.shortTarget (c : Catalog) (refPrefix : String) (t : TypeId) : String :=
  refPrefix ++ sanitizeName (c.simpleName t)

/-- What is written for roots and for the records that are completed for them, if each of these is
named after its short name. -/
def Catalog.documentSchema (c : Catalog) (policy : FieldPolicy) (refPrefix : String)
    (roots completed : List TypeId) : Json :=
  .object [
    ("roots", .array (roots.map (c.schemaOf (c.shortTarget refPrefix)))),
    ("components", .object [("schemas", .object (completed.map fun t =>
      (sanitizeName (c.simpleName t), c.recordSchema policy (c.shortTarget refPrefix) t)))])]

/-- Entries for fields, with what is written for their nodes. -/
private theorem map_zip_of_forall₂ {fs : List Field} {children : List NodeId} {α : Type}
    {g : NodeId → α} {k : TypeId → α}
    (h : List.Forall₂ (fun f child => g child = k f.type) fs children) :
    ((fs.map (·.name)).zip children).map (fun p => (p.1, g p.2)) =
      fs.map fun f => (f.name, k f.type) := by
  -- on the pairs: each field comes before its child
  induction h with
  | nil => rfl
  | cons hf _ ih =>
    simp only [List.map_cons, List.zip_cons_cons, hf, ih]

namespace Document

variable {doc : Document} {id : NodeId}

theorem isComponent_iff : doc.isComponent id = true ↔ id ∈ doc.components.map (·.2) := by
  rw [isComponent, List.any_eq_true, List.mem_map]
  simp only [decide_eq_true_eq]

/-- The nodes inside of a node have all levels but one. -/
theorem exists_renderNode (doc : Document) {n : Node} (hn : doc.arena.get? id = some n) :
    ∃ levels, doc.arena.size = levels + 1 ∧
      doc.renderNode id = .object (n.render (doc.arena.render levels)) := by
  have hlt := Arena.index_lt_of_get? hn
  -- a node is stored, so there is at least one level
  obtain ⟨levels, hlevels⟩ : ∃ levels, doc.arena.size = levels + 1 :=
    ⟨doc.arena.size - 1, by omega⟩
  exact ⟨levels, hlevels, by rw [renderNode, hlevels, Arena.render_of_get? levels hn]⟩

/-- A root that is a component is written as a reference to it. -/
theorem renderRoot_of_component {n : Node} {target : String} (hn : doc.arena.get? id = some n)
    (htarget : n.refTarget? doc.refPrefix = some target) (h : doc.isComponent id = true) :
    doc.renderRoot id = .object [("$ref", .string target)] := by
  rw [renderRoot, hn, Option.bind_some, htarget]
  exact if_pos h

/-- Any other root is written as its node is. -/
theorem renderRoot_of_not_component (h : doc.isComponent id = false) :
    doc.renderRoot id = doc.renderNode id := by
  rw [renderRoot]
  -- the two ways of writing are told apart by whether the root is a component
  split
  · rw [h]
    rfl
  · rfl

end Document

namespace Session

variable {s : Session} {done : List TypeId} {t : TypeId} {id : NodeId}

/-- The target of a record in a session where records are named after their short names. -/
abbrev shortTarget (s : Session) : TypeId → String :=
  s.catalog.shortTarget s.compiler.options.refPrefix

/-- The components are written under the short names of their records, in the order of
completion. -/
private theorem Sound.components_eq_names (h : s.Sound done)
    (hnames : ∀ {t name}, s.build.names.name? t = some name →
      name = sanitizeName (s.catalog.simpleName t)) :
    s.document.components = s.build.progress.completed.map fun e =>
      (sanitizeName (s.catalog.simpleName e.1), e.2) := by
  refine List.map_congr_left ?_
  rintro ⟨t, id⟩ hmem
  obtain ⟨name, hname, hbody⟩ := h.build.recorded.node hmem
  rw [componentOf_of_body hbody, hnames hname]

/-- If the records that were given names have different short names, each is named after its
own. -/
private theorem Sound.name_eq_of_requests (h : s.Sound done)
    (hrequests : s.build.names = .ofRequests s.catalog s.build.names.types)
    (hnames : ∀ t ∈ s.build.names.types, ∀ u ∈ s.build.names.types,
      sanitizeName (s.catalog.simpleName t) = sanitizeName (s.catalog.simpleName u) → t = u)
    {name : String} (hname : s.build.names.name? t = some name) :
    name = sanitizeName (s.catalog.simpleName t) := by
  -- the table lists the requests with the short names
  have hentries := NameTable.entries_ofRequests h.build.recorded.types_nodup hnames
  rw [← hrequests] at hentries
  have hmem := mem_of_valueOf? hname
  rw [hentries] at hmem
  obtain ⟨u, _, he⟩ := List.mem_map.mp hmem
  cases he
  rfl

section Written

variable (h : s.Sound done) (hqueued : s.build.progress.queued = []) (hc : s.catalog.Closed)
  (hnames : ∀ {t name}, s.build.names.name? t = some name →
    name = sanitizeName (s.catalog.simpleName t))

include h hqueued hnames

/-- What holds a record is a reference to its target. -/
private theorem Sound.get?_of_refers (t : TypeId) (id : NodeId)
    (hid : s.build.Refers s.compiler.options.refPrefix t id) : s.build.arena.get? id =
      some (.reference (s.shortTarget t)) := by
  obtain ⟨name, hname, hnode⟩ := h.exists_target hqueued hid
  rw [hnode, hnames hname]
  rfl

include hc

/-- The object of a record is written with its fields. -/
theorem Sound.renderNode_eq (hnodup : ((s.compiler.policy s.catalog t).map (·.name)).Nodup)
    (hid : (t, id) ∈ s.build.progress.completed) :
    s.document.renderNode id = s.catalog.recordSchema s.compiler.policy s.shortTarget t := by
  obtain ⟨name, children, hnode, hchildren⟩ := h.described t id hid
  have hbody := Arena.body?_of_get? hnode
  obtain ⟨n, hsize, hobject⟩ := s.document.exists_renderNode hnode
  -- each child has levels enough below the object
  have hheld := h.get?_of_refers hqueued hnames
  have hwritten := hchildren.imp fun (f : Field) child hchild =>
    have hsteps : s.catalog.elementSteps f.type + 1 < s.document.arena.size :=
      hchild.succ_elementSteps_lt hheld hc hbody
    hchild.render_eq hheld hc (show s.catalog.elementSteps f.type < n by omega)
  have hproperties : (Build.writeFields .empty (s.compiler.policy s.catalog t) children).entries.map
      (fun p => (p.1, s.build.arena.render n p.2)) =
        (s.compiler.policy s.catalog t).map fun f =>
          (f.name, s.catalog.schemaOf s.shortTarget f.type) := by
    rw [Build.entries_writeFields hnodup hchildren.length_eq]
    exact map_zip_of_forall₂ hwritten
  rw [hobject, Catalog.recordSchema, ← hproperties]
  rfl

/-- A root is written as the schema of its type. -/
theorem Sound.renderRoot_eq (hid : s.build.HoldsRoot s.setting t id) :
    s.document.renderRoot id = s.catalog.schemaOf s.shortTarget t := by
  cases hrecord : s.catalog.isRecord t with
  | true =>
    -- a record is written by the target of its object, which is a component
    rcases hid.record hrecord with hobject | hawaits
    · obtain ⟨name, hname, hbody⟩ := h.build.recorded.node hobject
      obtain ⟨n, hn, he⟩ := Arena.exists_get?_of_body? hbody
      have htarget : n.refTarget? s.compiler.options.refPrefix = some (s.shortTarget t) := by
        rw [Node.refTarget?, Node.name?, he, hnames hname]
        rfl
      have hcomponent : id ∈ s.document.components.map (·.2) := by
        rw [components_eq]
        exact List.mem_map.mpr ⟨_, hobject, rfl⟩
      rw [Catalog.schemaOf_of_isRecord hrecord]
      exact Document.renderRoot_of_component hn htarget (Document.isComponent_iff.mpr hcomponent)
    · exact absurd hawaits (h.not_awaits hqueued)
  | false =>
    have hrepresents := hid.plain hrecord
    have hheld := h.get?_of_refers hqueued hnames
    -- components are objects, and no object stands for such a type
    have hcomponent : s.document.isComponent id = false := by
      rw [Bool.eq_false_iff, Ne, Document.isComponent_iff, components_eq, List.mem_map]
      rintro ⟨⟨u, id⟩, hu, rfl⟩
      obtain ⟨name, _, hbody⟩ := h.build.recorded.node hu
      obtain ⟨n, hn, hne⟩ := hrepresents.exists_node hheld
      rw [Arena.body?_of_get? hn, Option.some.injEq] at hbody
      exact hne name hbody
    rw [Document.renderRoot_of_not_component hcomponent]
    exact hrepresents.render_eq hheld hc (hrepresents.elementSteps_lt hheld hc)

/-- A document is written from the catalog, the roots and the completed records. -/
theorem Sound.render_eq
    (hnodup : ∀ t, ((s.compiler.policy s.catalog t).map (·.name)).Nodup) :
    s.document.render = s.catalog.documentSchema s.compiler.policy s.compiler.options.refPrefix
      done s.build.progress.completedTypes := by
  have hroots : s.document.roots.map s.document.renderRoot =
      done.map (s.catalog.schemaOf s.shortTarget) := by
    -- roots and their nodes are paired, so they are written one by one
    have hlists := List.rel_map (R := s.build.HoldsRoot s.setting) (P := (· = ·))
      (fun t id hid => (h.renderRoot_eq hqueued hc hnames hid).symm) h.roots
    rw [List.forall₂_eq_eq_eq] at hlists
    exact hlists.symm
  have hschemas : (OrderedMap.ofList (s.document.components.map fun p =>
      (p.1, s.document.renderNode p.2))).entries = s.build.progress.completedTypes.map fun t =>
        (sanitizeName (s.catalog.simpleName t),
          s.catalog.recordSchema s.compiler.policy s.shortTarget t) := by
    -- no name is written twice, so the components are listed as they come
    rw [OrderedMap.ofList, OrderedMap.entries_foldl_insert (by
      rw [List.map_map]
      exact h.components_nodup)]
    rw [h.components_eq_names hnames, Progress.completedTypes, List.map_map, List.map_map]
    refine List.map_congr_left ?_
    rintro ⟨t, id⟩ hmem
    -- under its name each component is written as the schema of its record
    exact congrArg (Prod.mk _) (h.renderNode_eq hqueued hc hnames (hnodup t) hmem)
  rw [Document.render, hroots, Json.ofMap, hschemas, Catalog.documentSchema]

end Written

/-! ## Roots in another order -/

section Distinct

variable {options : Options} {decls : List TypeDecl} {c : Catalog} {roots : List TypeId}
  {doc : Document} (hc : Catalog.ofDecls decls = .ok c)
  (hdoc : ({ options } : Compiler).compileMany c roots = .ok doc)

include hc hdoc

/-- The completed types are the records that the roots lead to. -/
private theorem completed_of_compileMany : (doc.completed.map (·.1)).Nodup ∧
    ∀ t, t ∈ doc.completed.map (·.1) ↔
      c.shape? t = some .record ∧ ∃ root ∈ roots, FieldPolicy.accessible.Reaches c root t := by
  have hclosed := Catalog.closed_of_ofDecls hc
  have hs := (sound_session .accessible options c).after roots
  -- all roots have come to a node, so no type is left unfinished
  obtain ⟨hroots, _, rfl⟩ := compileMany_eq_ok rfl hdoc
  obtain ⟨_, _, _, hexpanding⟩ := compileRoots_ok rfl hroots
  refine ⟨hs.build.recorded.completedTypes_nodup, fun t => ?_⟩
  rw [← mem_listed_iff hclosed (FieldPolicy.accessible_closed hclosed) hroots]
  exact (hs.completedTypes_perm hexpanding).mem_iff

variable (hnames : ∀ t ∈ c.records, ∀ u ∈ c.records,
  sanitizeName (c.simpleName t) = sanitizeName (c.simpleName u) → t = u)

include hnames

/-- If no two records have the same short name, each is named after its own. -/
private theorem name?_of_distinct {t : TypeId} {name : String}
    (hname : ((({ options } : Compiler).session c).after roots).build.names.name? t = some name) :
    name = sanitizeName (c.simpleName t) := by
  have hclosed := Catalog.closed_of_ofDecls hc
  have hsound := sound_session .accessible options c
  have hs := hsound.after roots
  obtain ⟨hroots, _, rfl⟩ := compileMany_eq_ok rfl hdoc
  -- names are given to records only, and no two of these have the same short name
  have hrecord : ∀ t ∈ ((({ options } : Compiler).session c).after roots).build.names.types,
      t ∈ c.records := by
    intro t ht
    rw [← hs.build.recorded.listed, mem_listed_iff hclosed
      (FieldPolicy.accessible_closed hclosed) hroots] at ht
    exact Catalog.mem_records ht.1
  have hrequests := Walk.names_eq_of_moves (moves_after hsound roots) hsound.build rfl
  have hcatalog := (after_setting (({ options } : Compiler).session c) roots).1
  -- the table was filled by requests, so no short name was taken when it was asked for
  have hshort := hs.name_eq_of_requests (by rw [hcatalog]; exact hrequests)
    (by rw [hcatalog]; exact fun t ht u hu => hnames t (hrecord t ht) u (hrecord u hu)) hname
  rw [hcatalog] at hshort
  exact hshort

/-- If no two records have the same short name, a document is written from the catalog, the roots
and the records in the order in which they were completed. -/
private theorem render_of_distinct :
    doc.render =
      c.documentSchema .accessible options.refPrefix roots (doc.completed.map (·.1)) := by
  have hclosed := Catalog.closed_of_ofDecls hc
  have hsound := sound_session .accessible options c
  have hs := hsound.after roots
  obtain ⟨hroots, _, rfl⟩ := compileMany_eq_ok rfl hdoc
  obtain ⟨_, hsucceeded, _, hexpanding⟩ := compileRoots_ok rfl hroots
  obtain ⟨hqueued, _⟩ := finish_eq_ok_iff.mp (finish_of_expandingTypes hexpanding)
  obtain ⟨hcatalog, hcompiler⟩ := after_setting (({ options } : Compiler).session c) roots
  -- all roots came to a node
  rw [List.nil_append, hsucceeded] at hs
  have hrender := hs.render_eq hqueued (by rw [hcatalog]; exact hclosed)
    (by rw [hcatalog]; exact name?_of_distinct hc hdoc hnames)
    (by rw [hcatalog, hcompiler]; exact FieldPolicy.accessible_names_nodup c)
  rw [hcatalog, hcompiler] at hrender
  exact hrender

end Distinct

/-- If no two records have the same short name, neither the order of the roots nor repetition
changes what is written: all roots are written alike, and the components are the same. -/
theorem schemas_depend_on_root_set (options : Options) {decls : List TypeDecl} {c : Catalog}
    (hc : Catalog.ofDecls decls = .ok c)
    (hnames : ∀ t ∈ c.records, ∀ u ∈ c.records,
      sanitizeName (c.simpleName t) = sanitizeName (c.simpleName u) → t = u)
    {roots roots' : List TypeId} (hroots : ∀ t, t ∈ roots ↔ t ∈ roots') {doc doc' : Document}
    (hdoc : ({ options } : Compiler).compileMany c roots = .ok doc)
    (hdoc' : ({ options } : Compiler).compileMany c roots' = .ok doc') :
    ∃ (written : TypeId → Json) (schemas schemas' : List (String × Json)),
      doc.render = .object [("roots", .array (roots.map written)),
        ("components", .object [("schemas", .object schemas)])] ∧
      doc'.render = .object [("roots", .array (roots'.map written)),
        ("components", .object [("schemas", .object schemas')])] ∧
      (schemas.map (·.1)).Nodup ∧ schemas.Perm schemas' := by
  obtain ⟨hnodup, hmem⟩ := completed_of_compileMany hc hdoc
  obtain ⟨hnodup', hmem'⟩ := completed_of_compileMany hc hdoc'
  -- both lists are duplicate-free, and the same records are reached from both
  have htypes : (doc.completed.map (·.1)).Perm (doc'.completed.map (·.1)) := by
    rw [List.perm_ext_iff_of_nodup hnodup hnodup']
    intro t
    simp only [hmem, hmem', hroots]
  refine ⟨_, _, _, render_of_distinct hc hdoc hnames, render_of_distinct hc hdoc' hnames, ?_,
    htypes.map _⟩
  rw [List.map_map]
  refine hnodup.map_on fun t ht u hu he => ?_
  exact hnames t (Catalog.mem_records ((hmem t).mp ht).1) u
    (Catalog.mem_records ((hmem u).mp hu).1) he

/-! ## A catalog with different short names -/

/-- An author has a collection of books, and a book leads back to its author. -/
def libraryDecls : List TypeDecl :=
  [(TypeDecl.record "Author").withMember
      { name := "books", type := "Books", visibility := .everyone },
    .collection "Books" (some "Book"),
    ((TypeDecl.record "Book").withMember
      { name := "author", type := "Author", visibility := .everyone }).withMember
      { name := "title", type := "string", visibility := .everyone }]

/-- The catalog of these declarations. -/
def libraryCatalog : Catalog where
  types := (Catalog.builtins ++ libraryTypes).toArray
where
  libraryTypes : List TypeDef :=
    [{ name := "Author", simpleName := "Author", shape := .record,
       members := [{ name := "books", type := ⟨13⟩, visibility := .everyone }] },
     { name := "Books", simpleName := "Books", shape := .collection (some ⟨14⟩) },
     { name := "Book", simpleName := "Book", shape := .record,
       members := [{ name := "author", type := ⟨12⟩, visibility := .everyone },
         { name := "title", type := ⟨9⟩, visibility := .everyone }] }]

private theorem ofDecls_libraryDecls : Catalog.ofDecls libraryDecls = .ok libraryCatalog := by rfl

/-- A session on that catalog, after some roots. -/
abbrev librarySession (roots : List TypeId) : Session :=
  (({} : Compiler).session libraryCatalog).after roots

/-- Authors and books are written alike, whichever come first. -/
theorem schemas_depend_on_root_set_library :
    Catalog.ofDecls libraryDecls = .ok libraryCatalog ∧
    (∀ t ∈ libraryCatalog.records, ∀ u ∈ libraryCatalog.records,
      sanitizeName (libraryCatalog.simpleName t) = sanitizeName (libraryCatalog.simpleName u) →
        t = u) ∧
    (∀ t : TypeId, t ∈ [⟨12⟩, ⟨14⟩] ↔ t ∈ [⟨14⟩, ⟨12⟩, ⟨14⟩]) ∧
    ({} : Compiler).compileMany libraryCatalog [⟨12⟩, ⟨14⟩] =
      .ok (librarySession [⟨12⟩, ⟨14⟩]).document ∧
    ({} : Compiler).compileMany libraryCatalog [⟨14⟩, ⟨12⟩, ⟨14⟩] =
      .ok (librarySession [⟨14⟩, ⟨12⟩, ⟨14⟩]).document ∧
    ∃ (written : TypeId → Json) (schemas schemas' : List (String × Json)),
      (librarySession [⟨12⟩, ⟨14⟩]).document.render =
        .object [("roots", .array [written ⟨12⟩, written ⟨14⟩]),
          ("components", .object [("schemas", .object schemas)])] ∧
      (librarySession [⟨14⟩, ⟨12⟩, ⟨14⟩]).document.render =
        .object [("roots", .array [written ⟨14⟩, written ⟨12⟩, written ⟨14⟩]),
          ("components", .object [("schemas", .object schemas')])] ∧
      (schemas.map (·.1)).Nodup ∧ schemas.Perm schemas' := by
  have hnames : ∀ t ∈ libraryCatalog.records, ∀ u ∈ libraryCatalog.records,
      sanitizeName (libraryCatalog.simpleName t) = sanitizeName (libraryCatalog.simpleName u) →
        t = u := by decide +kernel
  have hroots : ∀ t : TypeId, t ∈ [⟨12⟩, ⟨14⟩] ↔ t ∈ [⟨14⟩, ⟨12⟩, ⟨14⟩] := by
    intro t
    grind
  have hdoc : ({} : Compiler).compileMany libraryCatalog [⟨12⟩, ⟨14⟩] =
      .ok (librarySession [⟨12⟩, ⟨14⟩]).document := by decide +kernel
  have hdoc' : ({} : Compiler).compileMany libraryCatalog [⟨14⟩, ⟨12⟩, ⟨14⟩] =
      .ok (librarySession [⟨14⟩, ⟨12⟩, ⟨14⟩]).document := by decide +kernel
  exact ⟨ofDecls_libraryDecls, hnames, hroots, hdoc, hdoc',
    schemas_depend_on_root_set {} ofDecls_libraryDecls hnames hroots hdoc hdoc'⟩

end Session

end Schemata
