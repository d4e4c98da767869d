import Schemata.Proofs.Search
import Schemata.Proofs.Walk.Reach
import Mathlib.Data.List.Induction

/-!
# The order in which records are met

A run enters a record when it opens it, and finishes it when it closes it.  Seen in this way, a run
that ends well is a search of the types that its task is about.  The names that a build has given
are those that come of asking for them in the order in which the records were entered.

## Key results

- `Runs.search_eq`: a run that ends well is a search
- `names_eq_of_moves`: names are given in the order in which records are entered
-/

namespace Schemata

/-- The table of names after types have asked for theirs, one after the other. -/
def NameTable.ofRequests (c : Catalog) (ts : List TypeId) : NameTable :=
  ts.foldl (fun table t => (table.request c t).2) {}

/-- One request more is made of the table that the others left. -/
theorem NameTable.ofRequests_append (c : Catalog) (ts : List TypeId) (t : TypeId) :
    ofRequests c (ts ++ [t]) = ((ofRequests c ts).request c t).2 := by
  rw [ofRequests, List.foldl_append]
  rfl

/-- If the short names of the types are different, each type is given its own. -/
theorem NameTable.entries_ofRequests {c : Catalog} {ts : List TypeId} (hts : ts.Nodup)
    (hnames : ∀ t ∈ ts, ∀ u ∈ ts,
      sanitizeName (c.simpleName t) = sanitizeName (c.simpleName u) → t = u) :
    (ofRequests c ts).entries = ts.map fun t => (t, sanitizeName (c.simpleName t)) := by
  -- on the types from the last one, whose request is made when all others were
  induction ts using List.reverseRecOn with
  | nil => rfl
  | append_singleton ts t ih =>
    have hnew : t ∉ ts := fun hmem =>
      List.disjoint_of_nodup_append hts hmem (List.mem_singleton_self t)
    have hentries := ih (hts.sublist (List.sublist_append_left ts [t])) fun u hu v hv =>
      hnames u (List.mem_append_left _ hu) v (List.mem_append_left _ hv)
    have hnone : (ofRequests c ts).name? t = none := by
      rw [name?_eq_none_iff, types, hentries, List.map_map]
      simpa using hnew
    -- no type before has the short name of this one
    have hfree : sanitizeName (c.simpleName t) ∉ (ofRequests c ts).names := by
      rw [names, hentries, List.map_map]
      intro hmem
      obtain ⟨u, hu, he⟩ := List.mem_map.mp hmem
      have hsame := hnames u (List.mem_append_left _ hu) t
        (List.mem_append_right _ (List.mem_singleton_self t)) he
      exact hnew (hsame ▸ hu)
    rw [ofRequests_append, request_of_none hnone, hentries, fresh, if_neg hfree, List.map_append]
    rfl

namespace Build

/-- The search that a build has made: a record has a name once it is entered, and is completed once
it is finished. -/
def search (b : Build) : Search := ⟨b.names.types, b.progress.completedTypes⟩

/-- Referring to a node enters and finishes nothing. -/
theorem search_refer (b : Build) (refPrefix : String) (id : NodeId) :
    (b.refer refPrefix id).2.search = b.search := by
  simp only [search, names_refer, progress_refer]

variable {S : Setting} {b : Build} {t : TypeId}

/-- A record that is absent has not been entered. -/
theorem Sound.notMem_entered (h : b.Sound S) (hstage : b.progress.stage t = .absent) :
    t ∉ b.search.entered :=
  NameTable.name?_eq_none_iff.mp (h.recorded.name?_of_absent hstage)

/-- A record that is completed or being expanded has been entered. -/
theorem Sound.mem_entered (h : b.Sound S)
    (ht : t ∈ b.progress.completedTypes ∨ t ∈ b.progress.expandingTypes) :
    t ∈ b.search.entered :=
  h.recorded.types.mem_iff.mp (List.mem_append.mpr ht)

/-- Opening an absent record enters it. -/
theorem Sound.search_openRecord (h : b.Sound S) (c : Catalog)
    (hstage : b.progress.stage t = .absent) : (b.openRecord c t).search = b.search.enter t := by
  have hname := h.recorded.name?_of_absent hstage
  -- an absent record has no name, so its name is appended
  rw [search, openRecord, NameTable.request_of_none hname]
  simp only [NameTable.types, List.map_append]
  rfl

/-- Closing a record finishes it. -/
theorem search_closeRecord (b : Build) (t : TypeId) (object : NodeId) (notes : List Fixup) :
    (b.closeRecord t object notes).search = b.search.finish t := by
  simp only [search, closeRecord, Progress.completedTypes, Progress.completed_finished,
    List.map_append]
  rfl

end Build

namespace Walk

variable {S : Setting} {task : Task} {b b' : Build} {r : Except CompileError NodeId × Build}

/-- A run that ends well is a search of the types that its task is about. -/
theorem Runs.search_eq (h : Runs S task b r) (hc : S.catalog.Closed)
    (hpolicy : S.policy.Closed S.catalog) (htask : task.Within S.catalog) (hb : b.Sound S)
    (hready : task.Ready b) {id : NodeId} (hok : r.1 = .ok id) :
    task.types.foldl (Search.visit S.policy S.catalog) b.search = r.2.search := by
  -- on the run; only the record that it expands is entered, and then finished
  induction h generalizing id with
  | tooDeep | fieldFailed | elementsFailed | expansionFailed | fieldsFailed => exact nomatch hok
  | fieldPlain _ _ ih => exact ih htask hb trivial rfl
  | fieldRecord _ _ ih =>
    exact (ih htask hb trivial rfl).trans (Build.search_refer _ _ _).symm
  | scalar hshape | enumeration hshape | unknownElements hshape =>
    refine Search.visit_of_ne_record ?_
    -- the type inside the leaf is no record
    rw [Catalog.innermost_of_none (Catalog.element?_eq_of_shape? hshape), hshape]
    exact fun he => nomatch he
  | @elements room p t b e items b' helement hitems ih =>
    have hsearch := ih (Task.within_elements hc helement) ((Move.visit p t).sound hb) trivial rfl
    exact (Search.visit_of_element? hc helement).trans hsearch
  | @known room p t b id hrecord hnode =>
    -- what is completed or being expanded was entered, so the search passes it over
    have ht := htask t (List.mem_singleton_self t)
    refine Search.visit_of_mem ?_
    rw [Catalog.innermost_of_record (Catalog.shape?_of_isRecord ht hrecord)]
    exact hb.mem_entered (.inl (Progress.isSome_node?_iff.mp (by rw [hnode]; rfl)))
  | @deferred room p t b hrecord hstage =>
    have ht := htask t (List.mem_singleton_self t)
    have hnotes := (Progress.stage_eq_expanding_iff.mp hstage).2
    refine Search.visit_of_mem ?_
    rw [Catalog.innermost_of_record (Catalog.shape?_of_isRecord ht hrecord)]
    exact hb.mem_entered (.inr (Progress.isSome_notes?_iff.mp hnotes))
  | @expanded room p t b b' notes hrecord hstage hfields hnotes ih =>
    have ht := htask t (List.mem_singleton_self t)
    have hshape := Catalog.shape?_of_isRecord ht hrecord
    -- the fields are searched from the build in which the record is entered
    obtain ⟨hopened, hopen⟩ := moves_openRecord hb p hrecord hstage
    have henter : ((b.visit p t).openRecord S.catalog t).search = b.search.enter t :=
      Build.Sound.search_openRecord (b := b.visit p t) ((Move.visit p t).sound hb) _ hstage
    have hsearch := ih (Task.within_listed hpolicy ht) (sound_of_moves hopened hb) hopen rfl
    rw [henter] at hsearch
    rw [Build.search_closeRecord, ← hsearch]
    exact Search.visit_of_record hshape (hb.notMem_entered hstage)
  | noFields => rfl
  | @nextField room p object f fs b child b' r hfield hrest ih ihrest =>
    obtain ⟨hset, hopen⟩ := move_setProperty (S := S)
      (Build.IsOpen.extends hready hfield.extends) f.name child
    have hsearch := ih htask.head hb trivial rfl
    have hsearch' := ihrest htask.tail (hset.sound (hfield.sound hb trivial)) hopen hok
    -- setting the property enters and finishes nothing
    rw [← hsearch', show (b'.setProperty object f.name child).search = b'.search from rfl,
      ← hsearch]
    rfl

/-- A move gives a name only to the record that it enters. -/
private theorem Move.names_eq (h : Move S b b') (hb : b.Sound S)
    (hnames : b.names = .ofRequests S.catalog b.names.types) :
    b'.names = .ofRequests S.catalog b'.names.types := by
  cases h with
  -- only opening a record changes the table
  | visit | leaf | refer | defer | setProperty | closeRecord => exact hnames
  | @openRecord t hrecord hstage =>
    have htypes : (b.openRecord S.catalog t).names.types = b.names.types ++ [t] :=
      congrArg Search.entered (hb.search_openRecord S.catalog hstage)
    rw [htypes, NameTable.ofRequests_append, ← hnames]
    rfl

/-- Names are given in the order in which records are entered. -/
theorem names_eq_of_moves (h : Relation.ReflTransGen (Move S) b b') (hb : b.Sound S)
    (hnames : b.names = .ofRequests S.catalog b.names.types) :
    b'.names = .ofRequests S.catalog b'.names.types := by
  induction h with
  | refl => exact hnames
  | tail hmoves hmove ih => exact hmove.names_eq (sound_of_moves hmoves hb) ih

end Walk

end Schemata
