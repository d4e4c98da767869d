import Schemata.Proofs.Naming
import Schemata.Proofs.Session.Order

/-!
# Names that a session is asked for

A session may be asked for the component names of types at any time, whether these are records that
it has compiled or not.  It answers every request, and the answers follow those names that roots
were given before.

## Key results

- `answered_ofRequests`: the names that records were given are answers to requests
- `exists_componentNames`: a session answers any number of requests
- `componentNames_answer`: the answers of a session, after any roots
-/

namespace Schemata

/-- Types of which none asks twice leave a table with what they were answered, in order. -/
theorem NameTable.answered_ofRequests {c : Catalog} {ts : List TypeId} (hts : ts.Nodup)
    (hhas : ∀ t ∈ ts, c.Has t) :
    (ofRequests c ts).types = ts ∧ Answered c (ofRequests c ts).entries (ofRequests c ts) := by
  -- on the requests from the last one, since a table grows at its end
  induction ts using List.reverseRecOn with
  | nil => exact ⟨rfl, .empty c⟩
  | append_singleton ts t ih =>
    have hnew : t ∉ ts := fun hmem =>
      List.disjoint_of_nodup_append hts hmem (List.mem_singleton_self t)
    obtain ⟨htypes, hanswered⟩ := ih (hts.sublist (List.sublist_append_left ts [t])) fun u hu =>
      hhas u (List.mem_append_left _ hu)
    have hrequest := hanswered.request (hhas t (by simp))
    rw [ofRequests_append]
    -- the new type comes last, in the table as among the requests
    rw [request_of_none (name?_eq_none_iff.mpr (by rwa [htypes]))] at hrequest ⊢
    refine ⟨?_, hrequest⟩
    simp only [types, List.map_append, List.map_cons, List.map_nil]
    exact congrArg (· ++ [t]) htypes

namespace Session

/-- What a session answers when it is asked for the names of types, one after the other. -/
def componentNames (s : Session) : List TypeId → List (Except CompileError String)
  | [] => []
  | t :: ts => (s.componentName t).1 :: (s.componentName t).2.componentNames ts

/-- A request is always answered, and changes nothing but the table of names. -/
private theorem componentName_eq (s : Session) (t : TypeId) :
    s.componentName t =
      (.ok (s.build.names.request s.catalog t).1,
        { s with build := { s.build with names := (s.build.names.request s.catalog t).2 } }) := rfl

/-- A session answers any number of requests, behind those that its table has answered. -/
theorem exists_componentNames {s : Session} {asked : List (TypeId × String)} {ts : List TypeId}
    (h : s.build.names.Answered s.catalog asked) (hts : ∀ t ∈ ts, s.catalog.Has t) :
    ∃ more, more.map (·.1) = ts ∧ s.componentNames ts = more.map (fun r => .ok r.2) ∧
      NameTable.Answers s.catalog (asked ++ more) := by
  -- on the requests, from whatever was answered before
  induction ts generalizing s asked with
  | nil => exact ⟨[], rfl, rfl, by simpa using h.answers⟩
  | cons t ts ih =>
    rw [List.forall_mem_cons] at hts
    -- the first request is answered behind those of before, and the others behind it
    have hfirst := h.request hts.1
    obtain ⟨more, hkeys, hnames, hanswers⟩ := ih (s := (s.componentName t).2) hfirst hts.2
    rw [List.append_assoc] at hanswers
    refine ⟨(t, (s.build.names.request s.catalog t).1) :: more, ?_, ?_, ?_⟩
    · rw [List.map_cons, hkeys]
    · rw [componentNames, hnames, componentName_eq, List.map_cons]
    · exact hanswers

/-- Whatever roots were compiled before, also such as failed, a session answers every request for
the name of a type.  With the names that the roots were given in front, a type that was named before
goes by the same name, any other type gets its first choice among the names that no type has,
different types have different names, and all names may stand in references. -/
theorem componentNames_answer {decls : List TypeDecl} {c : Catalog}
    (hc : Catalog.ofDecls decls = .ok c) (options : Options) (roots ts : List TypeId)
    (hts : ∀ t ∈ ts, c.Has t) :
    let s := (({ options } : Compiler).session c).after roots
    ∃ asked, asked.map (·.1) = ts ∧ s.componentNames ts = asked.map (fun r => .ok r.2) ∧
      NameTable.Answers c (s.build.names.entries ++ asked) ∧
      (∀ r ∈ s.build.names.entries ++ asked, ∀ r' ∈ s.build.names.entries ++ asked,
        r.2 = r'.2 ↔ r.1 = r'.1) ∧
      ∀ r ∈ s.build.names.entries ++ asked, IsReferable r.2 := by
  have hclosed := Catalog.closed_of_ofDecls hc
  have hpolicy : FieldPolicy.accessible.Closed c := FieldPolicy.accessible_closed hclosed
  have hbegin := sound_session .accessible options c
  have hs := hbegin.after roots
  have hcatalog := (after_setting (({ options } : Compiler).session c) roots).1
  -- the names that records were given are the answers to requests, each made once
  have hrequests := Walk.names_eq_of_moves (moves_after hbegin roots) hbegin.build rfl
  have hhas : ∀ t ∈ ((({ options } : Compiler).session c).after roots).build.names.types,
      c.Has t := by
    -- a type that has a name was reached from a root, so it is in the catalog
    intro t ht
    rcases names_reached hbegin.strategies hclosed hpolicy ht with hbefore | ⟨u, _, hu, hreach⟩
    · cases hbefore
    · exact hreach.has hclosed hpolicy hu
  -- the records asked once each, so their answers are in order
  have hanswered := (NameTable.answered_ofRequests hs.build.recorded.types_nodup hhas).2
  rw [show NameTable.ofRequests c _ = _ from hrequests.symm] at hanswered
  have hts' : ∀ t ∈ ts, ((({ options } : Compiler).session c).after roots).catalog.Has t := by
    rwa [hcatalog]
  -- the table is the state in which the requests of this theorem begin
  obtain ⟨asked, hkeys, hnames, hanswers⟩ := exists_componentNames (by rwa [hcatalog]) hts'
  rw [hcatalog] at hanswers
  exact ⟨asked, hkeys, hnames, hanswers, hanswers.name_eq_iff, hanswers.isReferable⟩

/-- Three types that would all go by the qualified name of the second one. -/
def userDecls : List TypeDecl :=
  [(TypeDecl.record "x.User").called "auth.User", (TypeDecl.record "auth.User").called "auth.User",
    (TypeDecl.record "y.User").called "auth.User"]

/-- After the first type is compiled, the second one is left with a number, and the third one with
its qualified name. -/
theorem componentNames_answer_users :
    ∃ c, Catalog.ofDecls userDecls = .ok c ∧
      ((({} : Compiler).session c).after [⟨12⟩]).componentNames [⟨13⟩, ⟨14⟩, ⟨13⟩, ⟨12⟩] =
        [.ok "auth.User_2", .ok "y.User", .ok "auth.User_2", .ok "auth.User"] ∧
      ∃ asked, asked.map (·.1) = [⟨13⟩, ⟨14⟩, ⟨13⟩, ⟨12⟩] ∧
        NameTable.Answers c ([(⟨12⟩, "auth.User")] ++ asked) := by
  obtain ⟨c, hc, hhas, hnames, hentries⟩ : ∃ c, Catalog.ofDecls userDecls = .ok c ∧
      (∀ t ∈ [(⟨13⟩ : TypeId), ⟨14⟩, ⟨13⟩, ⟨12⟩], c.Has t) ∧
      ((({} : Compiler).session c).after [⟨12⟩]).componentNames [⟨13⟩, ⟨14⟩, ⟨13⟩, ⟨12⟩] =
        [.ok "auth.User_2", .ok "y.User", .ok "auth.User_2", .ok "auth.User"] ∧
      ((({} : Compiler).session c).after [⟨12⟩]).build.names.entries = [(⟨12⟩, "auth.User")] := by
    -- the short name is the same for all three, and is taken from the second request on
    refine ⟨_, rfl, ?_, ?_, ?_⟩
    · simp only [Catalog.Has]
      decide +kernel
    · decide +kernel
    · decide +kernel
  obtain ⟨asked, hkeys, _, hanswers, _⟩ := componentNames_answer hc {} [⟨12⟩] _ hhas
  rw [hentries] at hanswers
  exact ⟨c, hc, hnames, asked, hkeys, hanswers⟩

end Session

end Schemata
