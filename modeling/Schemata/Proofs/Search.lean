import Schemata.Proofs.Field

/-!
# Searching the records of a catalog

`Search.ofRoots` is the plain depth-first search that compiling roots comes down to: there are no
nodes, no placeholders and no limit, only the records met so far.  A record is entered when it is
met for the first time, then the types of its fields are searched in order, and then it is finished.
Arrays and collections are looked through.

## Key results

- `visit_eq`: a search is as deep as it need be, whatever bound it is computed with
- `visit_of_mem` / `visit_of_element?` / `visit_of_record`: one step of a search
-/

namespace Schemata

/-! ## The type inside all containers -/

namespace Catalog

variable {c : Catalog} {t e : TypeId}

/-- The type that is left when all arrays and collections around it are looked through. -/
def innermost (c : Catalog) (t : TypeId) : TypeId :=
  (chain c.element? c.size t).getLast (chain_ne_nil c.size t)

/-- A type without elements is not looked through. -/
theorem innermost_of_none (h : c.element? t = none) : c.innermost t = t := by
  simp only [innermost, chain_of_none c.size h, List.getLast_singleton]

/-- A container is looked through. -/
theorem Closed.innermost_of_some (hc : c.Closed) (h : c.element? t = some e) :
    c.innermost t = c.innermost e := by
  simp only [innermost, chain_of_some (hc.element_ends t) h]
  exact List.getLast_cons (chain_ne_nil c.size e)

/-- A record is inside no container. -/
theorem innermost_of_record (h : c.shape? t = some .record) : c.innermost t = t :=
  innermost_of_none (element?_eq_of_shape? h)

end Catalog

/-! ## The search -/

/-- What a search has met: the records that were entered, and those that are finished, in order. -/
structure Search where
  entered : List TypeId := []
  finished : List TypeId := []
  deriving Repr, DecidableEq

namespace Search

/-- A record is met for the first time. -/
def enter (s : Search) (t : TypeId) : Search := { s with entered := s.entered ++ [t] }

/-- All that a record leads to has been searched. -/
def finish (s : Search) (t : TypeId) : Search := { s with finished := s.finished ++ [t] }

/-- Searches what a type leads to, where at most `nesting` records are entered inside each other. -/
def visitWithin (policy : FieldPolicy) (c : Catalog) : (nesting : Nat) → Search → TypeId → Search
  | 0, s, _ => s
  | nesting + 1, s, t =>
    let u := c.innermost t
    if c.shape? u = some .record ∧ u ∉ s.entered then
      (((policy c u).map (·.type)).foldl (visitWithin policy c nesting) (s.enter u)).finish u
    else s

/-- Searches what a type leads to.  No record is entered inside itself, so there is no deeper
nesting than the catalog has records. -/
def visit (policy : FieldPolicy) (c : Catalog) (s : Search) (t : TypeId) : Search :=
  visitWithin policy c c.records.length s t

/-- Searches what some roots lead to, from nothing. -/
def ofRoots (policy : FieldPolicy) (c : Catalog) (roots : List TypeId) : Search :=
  roots.foldl (visit policy c) {}

variable {policy : FieldPolicy} {c : Catalog} {s : Search} {t e : TypeId}

/-! ## The bound on the nesting -/

/-- The records that have not been entered yet. -/
def unentered (c : Catalog) (s : Search) : List TypeId :=
  c.records.filter fun t => t ∉ s.entered

/-- A record that was not entered is left to enter. -/
private theorem mem_unentered (hrecord : c.shape? t = some .record) (hnew : t ∉ s.entered) :
    t ∈ unentered c s :=
  List.mem_filter.mpr ⟨Catalog.mem_records hrecord, decide_eq_true hnew⟩

/-- The more is entered, the less is left to enter. -/
theorem unentered_sublist {s s' : Search} (h : s.entered ⊆ s'.entered) :
    (unentered c s').Sublist (unentered c s) := by
  refine List.monotone_filter_right _ fun t ht => ?_
  simp only [decide_eq_true_eq] at ht ⊢
  exact fun hmem => ht (h hmem)

/-- When a record is entered, one less is left to enter. -/
theorem length_unentered_enter (hrecord : c.shape? t = some .record) (hnew : t ∉ s.entered) :
    (unentered c (s.enter t)).length < (unentered c s).length := by
  have hsub : (unentered c (s.enter t)).Sublist (unentered c s) :=
    unentered_sublist (List.subset_append_left _ _)
  refine Nat.lt_of_le_of_ne hsub.length_le fun heq => ?_
  -- the record itself was left to enter before, and is not any more
  have hmem : t ∈ unentered c (s.enter t) := by
    rw [hsub.eq_of_length heq]
    exact mem_unentered hrecord hnew
  have hnot := of_decide_eq_true (List.mem_filter.mp hmem).2
  exact hnot (List.mem_append_right _ (List.mem_singleton_self t))

/-- What was entered stays entered while a list of types is searched. -/
private theorem entered_subset_foldl {f : Search → TypeId → Search}
    (hf : ∀ s t, s.entered ⊆ (f s t).entered) (ts : List TypeId) (s : Search) :
    s.entered ⊆ (ts.foldl f s).entered := by
  induction ts generalizing s with
  | nil => exact List.Subset.refl _
  | cons t ts ih => exact List.Subset.trans (hf s t) (ih _)

/-- What was entered stays entered. -/
private theorem entered_subset_visitWithin (nesting : Nat) (s : Search) (t : TypeId) :
    s.entered ⊆ (visitWithin policy c nesting s t).entered := by
  -- on the nesting; the fields of a record are searched with one level less
  induction nesting generalizing s t with
  | zero => exact List.Subset.refl _
  | succ nesting ih =>
    rw [visitWithin]
    split
    · have hfields := entered_subset_foldl ih ((policy c (c.innermost t)).map (·.type))
        (s.enter (c.innermost t))
      exact List.Subset.trans (List.subset_append_left _ _) hfields
    · exact List.Subset.refl _

/-- Two searches that agree while no more than a number of records is left to enter agree on a list
of types, since nothing entered is forgotten on the way. -/
private theorem foldl_congr {f g : Search → TypeId → Search} {n : Nat}
    (hg : ∀ s t, s.entered ⊆ (g s t).entered)
    (hfg : ∀ s, (unentered c s).length ≤ n → ∀ t, f s t = g s t) (ts : List TypeId) {s : Search}
    (hs : (unentered c s).length ≤ n) : ts.foldl f s = ts.foldl g s := by
  -- on the types, with what was entered for those before them
  induction ts generalizing s with
  | nil => rfl
  | cons t ts ih =>
    have hle := (unentered_sublist (c := c) (hg s t)).length_le
    rw [List.foldl_cons, List.foldl_cons, hfg s hs t]
    exact ih (Nat.le_trans hle hs)

/-- When no record is left to enter, a search is over. -/
private theorem visitWithin_of_unentered (h : (unentered c s).length ≤ 0) (nesting : Nat)
    (t : TypeId) : visitWithin policy c nesting s t = s := by
  cases nesting with
  | zero => rfl
  | succ nesting =>
    -- a record that could be entered would be left to enter
    refine if_neg fun ⟨hrecord, hnew⟩ => ?_
    have hmem := mem_unentered hrecord hnew
    rw [List.length_eq_zero_iff.mp (Nat.le_zero.mp h)] at hmem
    cases hmem

/-- If at least as many records may be entered inside each other as are left to enter, it makes no
difference how many. -/
private theorem visitWithin_congr {n m : Nat} (hn : (unentered c s).length ≤ n)
    (hm : (unentered c s).length ≤ m) :
    visitWithin policy c n s t = visitWithin policy c m s t := by
  -- on the first bound; each record that is entered leaves one less to enter below it
  induction n generalizing m s t with
  | zero => rw [visitWithin_of_unentered hn, visitWithin_of_unentered hn]
  | succ n ih =>
    cases m with
    | zero => rw [visitWithin_of_unentered hm, visitWithin_of_unentered hm]
    | succ m =>
      simp only [visitWithin]
      split
      · rename_i hnew
        have hless := length_unentered_enter hnew.1 hnew.2
        have hsame : ∀ s', (unentered c s').length ≤
            (unentered c (s.enter (c.innermost t))).length →
            ∀ u, visitWithin policy c n s' u = visitWithin policy c m s' u :=
          fun s' hs' u => ih (by omega) (by omega)
        rw [foldl_congr (entered_subset_visitWithin m) hsame _ (Nat.le_refl _)]
      · rfl

/-! ## One step -/

/-- A record that is met for the first time is entered, the types of its fields are searched in
order, and it is finished; nothing else is to be done. -/
theorem visit_eq (policy : FieldPolicy) (c : Catalog) (s : Search) (t : TypeId) :
    visit policy c s t =
      let u := c.innermost t
      if c.shape? u = some .record ∧ u ∉ s.entered then
        (((policy c u).map (·.type)).foldl (visit policy c) (s.enter u)).finish u
      else s := by
  have hle : (unentered c s).length ≤ c.records.length := List.length_filter_le _ _
  calc visit policy c s t = visitWithin policy c (c.records.length + 1) s t :=
        visitWithin_congr hle (Nat.le_succ_of_le hle)
    _ = _ := rfl

/-- Nothing is entered twice. -/
theorem visit_of_mem (h : c.innermost t ∈ s.entered) : visit policy c s t = s := by
  rw [visit_eq]
  exact if_neg fun hnew => hnew.2 h

/-- What is no record, and contains none, is passed over. -/
theorem visit_of_ne_record (h : c.shape? (c.innermost t) ≠ some .record) :
    visit policy c s t = s := by
  rw [visit_eq]
  exact if_neg fun hnew => h hnew.1

/-- Containers are looked through. -/
theorem visit_of_element? (hc : c.Closed) (h : c.element? t = some e) :
    visit policy c s t = visit policy c s e := by
  rw [visit_eq, visit_eq, hc.innermost_of_some h]

/-- A record that was not entered is entered, its fields are searched, and it is finished. -/
theorem visit_of_record (hrecord : c.shape? t = some .record) (hnew : t ∉ s.entered) :
    visit policy c s t =
      (((policy c t).map (·.type)).foldl (visit policy c) (s.enter t)).finish t := by
  rw [visit_eq, Catalog.innermost_of_record hrecord]
  exact if_pos ⟨hrecord, hnew⟩

end Search

end Schemata
