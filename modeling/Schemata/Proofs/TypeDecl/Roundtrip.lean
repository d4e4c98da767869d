import Schemata.Command.Run
import Schemata.Proofs.Json.Reads

/-!
# Declarations that are written are read back

An encoder leaves out what is absent, empty or not set, and a reader puts the same back in.  The
members of a shape stand between the other members of its declaration: the reader keeps all members
that it does not know, and makes the shape of them at the end.

## Key results

- `Shape.ofRest_encode`: a shape is made again of its members
- `Reader.reads_field` / `Reader.reads_typeDecl` / `Reader.reads_typeDecls`: what each reader takes
  from what the encoder writes
- `Catalog.ofSource_encodeAll`: a list of declarations makes the same catalog, or the same error,
  whether it is written and read again or not
-/

namespace Schemata

/-! ## Names -/

/-- A visibility is known by its name. -/
private theorem Visibility.ofName?_name (v : Visibility) :
    Named.ofName? (Named.name v) = some v := by
  cases v <;> decide

/-- So is a kind. -/
private theorem Kind.ofName?_name (k : Kind) : Named.ofName? (Named.name k) = some k := by
  cases k <;> decide

/-! ## Members that have been gathered -/

namespace Json

variable {α : Type} {name : String} {f : Json → Except Mismatch α}

/-- Members of other names change nothing. -/
private theorem foldlM_of_absent {ms : List (String × Json)} (h : ∀ m ∈ ms, m.1 ≠ name)
    (before : Option α) :
    ms.foldlM (fun before m =>
      if m.1 ≠ name then Except.ok before
      else if before.isSome then .error (.repeated name)
      else some <$> f m.2) before = .ok before := by
  -- none of the members has the name, so the fold passes over all of them
  induction ms with
  | nil => rfl
  | cons m ms ih =>
    rw [List.foldlM_cons, if_pos (h m List.mem_cons_self)]
    exact ih fun m' hm' => h m' (List.mem_cons_of_mem m hm')

/-- A member is passed over by those who look for another one. -/
private theorem member?_cons_of_ne {other : String} (h : other ≠ name) (j : Json)
    (ms : List (String × Json)) : member? name f ((other, j) :: ms) = member? name f ms := by
  unfold member?
  rw [List.foldlM_cons, if_pos h]
  rfl

/-- A member is found if no other one has its name. -/
private theorem member?_cons_self {j : Json} {a : α} (hj : f j = .ok a) {ms : List (String × Json)}
    (h : ∀ m ∈ ms, m.1 ≠ name) : member? name f ((name, j) :: ms) = .ok (some a) := by
  unfold member?
  -- the first member has the name, and none after it
  rw [List.foldlM_cons, if_neg (not_not_intro rfl)]
  show (some <$> f j >>= _) = _
  rw [hj]
  exact foldlM_of_absent h (some a)

/-- The only member behind another one is found. -/
private theorem member?_pair {other : String} (h : other ≠ name) (before : Json) {j : Json} {a : α}
    (hj : f j = .ok a) : member? name f [(other, before), (name, j)] = .ok (some a) := by
  rw [member?_cons_of_ne h, member?_cons_self hj (by simp)]

/-- A list of strings is read as it was written. -/
private theorem asArray_strings (items : List String) :
    asArray asString (strings items) = .ok items := by
  show (items.map Json.string).mapM asString = .ok items
  induction items with
  | nil => rfl
  | cons item items ih =>
    rw [List.map_cons, List.mapM_cons, ih]
    rfl

end Json

/-! ## Shapes -/

namespace Shape

/-- The kind of a shape is read from its name. -/
private theorem ofMember_kind (k : Kind) : Kind.ofMember (.ofNamed k) = .ok k := by
  show Reader.memberNamed Kind (Named.name k) = .ok k
  rw [Reader.memberNamed, Kind.ofName?_name]

/-- So is a kind of scalar. -/
private theorem asNamed_scalar (s : Scalar) : Json.asNamed Scalar (.ofNamed s) = .ok s := by
  show Reader.memberNamed Scalar (Named.name s) = .ok s
  rw [Reader.memberNamed, Scalar.ofName?_name]

/-- The members that describe a shape are strings or arrays of strings, under names that a
declaration has no member for. -/
private theorem mem_encode {s : Shape String} {m : String × Json} (h : m ∈ s.encode) :
    m.1 ∈ ["kind", "primitive", "element", "variants"] ∧
      ((∃ text, m.2 = .string text) ∨ ∃ texts, m.2 = .strings texts) := by
  rcases List.mem_cons.mp h with rfl | hcontent
  -- the kind is always there; which other member there is depends on the shape
  · exact ⟨by simp, .inl ⟨_, rfl⟩⟩
  · cases s with
    | scalar s =>
      obtain rfl := List.mem_singleton.mp hcontent
      exact ⟨by simp, .inl ⟨_, rfl⟩⟩
    | array element =>
      obtain rfl := List.mem_singleton.mp hcontent
      exact ⟨by simp, .inl ⟨_, rfl⟩⟩
    | collection element =>
      cases element with
      | none => exact absurd hcontent List.not_mem_nil
      | some element =>
        obtain rfl := List.mem_singleton.mp hcontent
        exact ⟨by simp, .inl ⟨_, rfl⟩⟩
    | enumeration variants =>
      obtain rfl := List.mem_singleton.mp hcontent
      exact ⟨by simp, .inr ⟨_, rfl⟩⟩
    | record => exact absurd hcontent List.not_mem_nil

/-- Only the first member of a shape is its kind. -/
private theorem content_ne_kind (s : Shape String) : ∀ m ∈ s.content, m.1 ≠ "kind" := by
  cases s with
  | collection element => cases element <;> simp [content, Json.optionalString]
  | _ => simp [content]

/-- A shape of a known kind takes the member that goes with the kind. -/
private theorem ofMembers_encode (s : Shape String) : ofMembers s.kind s.encode = .ok s := by
  unfold encode
  -- on the kind, as the code does; each looks for its member behind that of the kind
  cases s with
  | scalar s =>
    show (Json.member? "primitive" (Json.asNamed Scalar) [_, _] >>= _) = _
    rw [Json.member?_pair (by decide) _ (asNamed_scalar s)]
    rfl
  | array element =>
    show (Json.member? "element" Json.asString [_, _] >>= _) = _
    rw [Json.member?_pair (a := element) (by decide) _ rfl]
    rfl
  | collection element =>
    cases element with
    | none => rfl
    | some element =>
      show (Json.member? "element" (Json.asOptional Json.asString) [_, _] >>= _) = _
      rw [Json.member?_pair (a := some element) (by decide) _ rfl]
      rfl
  | enumeration variants =>
    show (Json.member? "variants" (Json.asArray Json.asString) [_, _] >>= _) = _
    rw [Json.member?_pair (by decide) _ (Json.asArray_strings variants)]
    rfl
  | record => rfl

/-- A shape is made again of the members that describe it. -/
theorem ofRest_encode (s : Shape String) : ofRest s.encode = .ok s := by
  have hkind : Json.member? "kind" Kind.ofMember s.encode = .ok (some s.kind) :=
    Json.member?_cons_self (ofMember_kind s.kind) s.content_ne_kind
  unfold ofRest
  rw [hkind]
  exact s.ofMembers_encode

end Shape

namespace Reader

/-! ## Members that may be left out -/

/-- What is read of a list that is left out if it is empty. -/
def unlessEmpty {α : Type} : List α → Option (List α)
  | [] => none
  | as => some as

private theorem getD_unlessEmpty {α : Type} (as : List α) : (unlessEmpty as).getD [] = as := by
  cases as <;> rfl

section Steps

variable {α σ : Type} {step : σ → String → Reader σ} {state : σ} {name : String}

/-- A state that depends on a string follows, if it is the old one without the string. -/
private theorem Steps.optionalString (next : Option String → σ) (hnone : next none = state)
    (hsome : ∀ s, ReadsMember (step state name) (.string s) (next (some s))) (s : Option String) :
    -- what is left out leaves the state as it is
    Steps step (Json.optionalString name s) state (next s) := by
  cases s with
  | none => exact hnone.symm
  | some s => exact .single (hsome s)

/-- So it is with an array that is left out if it is empty. -/
private theorem Steps.optionalArray {encode : α → Json} (next : Option (List α) → σ)
    (hnone : next none = state)
    (hsome : ∀ as, ReadsMember (step state name) (.array (as.map encode)) (next (some as)))
    (as : List α) : Steps step (Json.optionalArray name (as.map encode)) state
      (next (unlessEmpty as)) := by
  cases as with
  | nil => exact hnone.symm
  | cons a as => exact .single (hsome (a :: as))

/-- So it is with a flag that is left out if it is not set. -/
private theorem Steps.flag (next : Bool → σ) (hfalse : next false = state)
    (htrue : ReadsMember (step state name) (.bool true) (next true)) (value : Bool) :
    Steps step (Json.flag name value) state (next value) := by
  cases value with
  | false => exact hfalse.symm
  | true => exact .single htrue

/-- A member that has not come before is noted. -/
private theorem ReadsMember.update {before : Option α} (hbefore : before = none) {r : Reader α}
    {j : Json} {a : α} (h : Reads r j a) (next : Option α → σ) :
    ReadsMember (do return next (← once name before r)) j (next (some a)) := by
  subst hbefore
  exact (h.once name).map next

end Steps

/-! ## Fields -/

/-- The draft of a field, once all members that were written have been read.  A flag that is not set
has not been seen. -/
def MemberDraft.of (m : Member String) : MemberDraft where
  name := some m.name
  type := some m.type
  visibility := some m.visibility
  isStatic := if m.isStatic then some true else none
  isFinal := if m.isFinal then some true else none

/-- The draft of a field makes the field. -/
private theorem MemberDraft.finish_of (m : Member String) (s : Source) :
    (MemberDraft.of m).finish s = .ok (m, s) := by
  obtain ⟨name, type, visibility, isStatic, isFinal⟩ := m
  -- a flag that is not seen is taken not to be set, as it was
  cases isStatic <;> cases isFinal <;> rfl

/-- The members of a field lead to its draft. -/
private theorem steps_field (m : Member String) :
    Steps MemberDraft.step
      ([("name", .string m.name), ("type", .string m.type), ("visibility", .ofNamed m.visibility)]
        ++ Json.flag "static" m.isStatic ++ Json.flag "final" m.isFinal) {} (MemberDraft.of m) := by
  -- the drafts on the way, one for each group of members
  let d₁ : MemberDraft := { name := some m.name }
  let d₂ : MemberDraft := { d₁ with type := some m.type }
  let d₃ : MemberDraft := { d₂ with visibility := some m.visibility }
  let d₄ : MemberDraft := { d₃ with isStatic := if m.isStatic then some true else none }
  have hrequired : Steps MemberDraft.step
      [("name", .string m.name), ("type", .string m.type), ("visibility", .ofNamed m.visibility)]
      {} d₃ :=
    ⟨d₁, .update rfl (.string m.name) _, d₂, .update rfl (.string m.type) _,
      d₃, .update rfl (.named m.visibility.ofName?_name) _, rfl⟩
  have hstatic : Steps MemberDraft.step (Json.flag "static" m.isStatic) d₃ d₄ :=
    .flag (fun b => { d₃ with isStatic := if b then some true else none }) rfl
      (.update rfl (.bool true) _) m.isStatic
  have hfinal : Steps MemberDraft.step (Json.flag "final" m.isFinal) d₄ (.of m) :=
    .flag (fun b => { d₄ with isFinal := if b then some true else none }) rfl
      (.update rfl (.bool true) _) m.isFinal
  exact (hrequired.append hstatic).append hfinal

/-- A field is read back. -/
theorem reads_field (m : Member String) : Reads field m.encode m :=
  ((objectBody_of_steps (steps_field m)).bind (MemberDraft.finish_of m)).structured _ _

/-! ## Declarations -/

/-- The draft of a declaration, once all members that were written have been read.  What was left
out has not been seen. -/
def DeclDraft.of (d : TypeDecl) : DeclDraft where
  name := some d.name
  simpleName := d.simpleName.map some
  superclass := d.superclass.map some
  members := unlessEmpty d.members
  methods := unlessEmpty d.methods
  rest := d.shape.encode.reverse

/-- The draft of a declaration makes the declaration. -/
private theorem DeclDraft.finish_of (d : TypeDecl) (s : Source) :
    (DeclDraft.of d).finish s = .ok (d, s) := by
  -- the members that describe the shape were kept in the reverse order
  have hshape : fit (Shape.ofRest (DeclDraft.of d).rest.reverse) s = .ok (d.shape, s) := by
    show fit (Shape.ofRest d.shape.encode.reverse.reverse) s = _
    rw [List.reverse_reverse, Shape.ofRest_encode]
    rfl
  -- a text that is given may be null, and one that is left out is as good as null
  have hjoin (a : Option String) : (a.map some).join = a := by cases a <;> rfl
  have hname : require "name" (DeclDraft.of d).name s = .ok (d.name, s) := rfl
  unfold DeclDraft.finish
  rw [bind_ok hname, bind_ok hshape]
  show Except.ok (({ d with
    simpleName := (d.simpleName.map some).join, superclass := (d.superclass.map some).join,
    members := (unlessEmpty d.members).getD [],
    methods := (unlessEmpty d.methods).getD [] } : TypeDecl), s) = _
  rw [hjoin, hjoin, getD_unlessEmpty, getD_unlessEmpty]

/-- A member that a declaration does not know is kept as it stands. -/
private theorem DeclDraft.step_rest (room : Nat) (d : DeclDraft) {name : String}
    (h : name ∈ ["kind", "primitive", "element", "variants"]) :
    d.step room name =
      do return { d with rest := (name, ← memberValue (value room)) :: d.rest } := by
  simp only [List.mem_cons, List.not_mem_nil, or_false] at h
  -- none of the four is one of the names that a draft knows
  rcases h with rfl | rfl | rfl | rfl <;> rfl

/-- The members of a shape are kept, last one first. -/
private theorem steps_rest {room : Nat} (hroom : 0 < room) {ms : List (String × Json)}
    (hms : ∀ m ∈ ms, m.1 ∈ ["kind", "primitive", "element", "variants"] ∧
      ((∃ text, m.2 = .string text) ∨ ∃ texts, m.2 = .strings texts)) (d : DeclDraft) :
    Steps (DeclDraft.step room) ms d { d with rest := ms.reverse ++ d.rest } := by
  obtain ⟨room, rfl⟩ := Nat.exists_eq_succ_of_ne_zero (Nat.ne_of_gt hroom)
  -- on the members in the order of the text, which the draft holds the other way round
  induction ms generalizing d with
  | nil => rfl
  | cons m ms ih =>
    obtain ⟨name, j⟩ := m
    obtain ⟨hname, hj⟩ := hms _ List.mem_cons_self
    have hvalue : Reads (value (room + 1)) j j := by
      rcases hj with ⟨text, rfl⟩ | ⟨texts, rfl⟩
      · exact .value_string (room + 1) text
      · exact .value_strings room texts
    have hmember : ReadsMember (d.step (room + 1) name) j
        { d with rest := (name, j) :: d.rest } := by
      rw [DeclDraft.step_rest _ d hname]
      exact hvalue.memberValue.map fun v => { d with rest := (name, v) :: d.rest }
    refine ⟨_, hmember, ?_⟩
    rw [List.reverse_cons, List.append_assoc]
    -- the draft has one member more, and the others are still to come
    exact ih (fun m' hm' => hms m' (List.mem_cons_of_mem _ hm')) _

/-- The members of a declaration lead to its draft. -/
private theorem steps_typeDecl {room : Nat} (hroom : 0 < room) (d : TypeDecl) :
    Steps (DeclDraft.step room)
      (("name", .string d.name) :: Json.optionalString "simple_name" d.simpleName
        ++ d.shape.encode ++ Json.optionalString "superclass" d.superclass
        ++ Json.optionalArray "fields" (d.members.map Member.encode)
        ++ Json.optionalArray "methods" (d.methods.map .string)) {} (DeclDraft.of d) := by
  -- the drafts on the way, one for each group of members
  let d₁ : DeclDraft := { name := some d.name }
  let d₂ : DeclDraft := { d₁ with simpleName := d.simpleName.map some }
  let d₃ : DeclDraft := { d₂ with rest := d.shape.encode.reverse }
  let d₄ : DeclDraft := { d₃ with superclass := d.superclass.map some }
  let d₅ : DeclDraft := { d₄ with members := unlessEmpty d.members }
  have hname : Steps (DeclDraft.step room) [("name", .string d.name)] {} d₁ :=
    .single (.update rfl (.string d.name) _)
  have hsimpleName : Steps (DeclDraft.step room) (Json.optionalString "simple_name" d.simpleName)
      d₁ d₂ :=
    .optionalString (fun a => { d₁ with simpleName := a.map some }) rfl
      (fun a => .update rfl (.optional_string a) _) d.simpleName
  -- members that the draft does not know are kept for the shape
  have hshape : Steps (DeclDraft.step room) d.shape.encode d₂ d₃ := by
    have hrest := steps_rest hroom (fun _ => Shape.mem_encode (s := d.shape)) d₂
    rwa [show d₂.rest = [] from rfl, List.append_nil] at hrest
  have hsuperclass : Steps (DeclDraft.step room) (Json.optionalString "superclass" d.superclass)
      d₃ d₄ :=
    .optionalString (fun a => { d₃ with superclass := a.map some }) rfl
      (fun a => .update rfl (.optional_string a) _) d.superclass
  have hfields : Steps (DeclDraft.step room)
      (Json.optionalArray "fields" (d.members.map Member.encode)) d₄ d₅ :=
    .optionalArray (fun ms => { d₄ with members := ms }) rfl
      (fun ms => .update rfl (.array_map reads_field ms) _) d.members
  have hmethods : Steps (DeclDraft.step room)
      (Json.optionalArray "methods" (d.methods.map .string)) d₅ (.of d) :=
    .optionalArray (fun ss => { d₅ with methods := ss }) rfl
      (fun ss => .update rfl (.array_map Reads.string ss) _) d.methods
  exact ((((hname.append hsimpleName).append hshape).append hsuperclass).append hfields).append
    hmethods

/-- A declaration is read back, if there is room for a bracket inside it. -/
theorem reads_typeDecl {depth : Nat} (hdepth : depth + 1 < maxNesting) (d : TypeDecl) :
    Reads (typeDecl depth) d.encode d := by
  have hroom : 0 < maxNesting - 1 - depth := by omega
  refine ((objectBody_of_steps (steps_typeDecl hroom d)).bind (DeclDraft.finish_of d)).reads ?_
  -- an object begins with a bracket, so the reader does not take it for anything else
  intro ws more rest hws
  unfold typeDecl
  rw [peekSome_bind hws rfl, if_pos rfl]
  rfl

/-- A list of declarations is read back. -/
theorem reads_typeDecls (decls : List TypeDecl) :
    Reads typeDecls (TypeDecl.encodeAll decls) decls := by
  have htypes : Reads (array (typeDecl 2)) (.array (decls.map TypeDecl.encode)) decls :=
    .array_map (reads_typeDecl (by decide)) decls
  -- no member is passed over, so the list is there at the end
  have hrequire (s : Source) : require "types" (some decls) s = .ok (decls, s) := rfl
  refine ((objectBody_of_steps (.single ?_)).bind hrequire).structured _ _
  exact htypes.once "types"

end Reader

/-! ## Whole texts -/

/-- A declaration is read from every text that spells it. -/
private theorem TypeDecl.run_of_spells {d : TypeDecl} {text : List Char}
    (h : d.encode.Spells text) :
    (Reader.typeDecl 0).run (.ofString (String.ofList text)) = .ok d :=
  (Reader.reads_typeDecl (by decide) d).run h

/-- A text that spells declarations comes to what these declarations come to themselves. -/
private theorem Catalog.ofSource_of_spells {decls : List TypeDecl} {text : List Char}
    (h : (TypeDecl.encodeAll decls).Spells text) :
    ofSource (.ofString (String.ofList text)) = (ofDecls decls).mapError .catalog := by
  unfold ofSource
  rw [(Reader.reads_typeDecls decls).run h]
  simp only
  -- whether the declarations are accepted is not decided by the reader
  cases ofDecls decls <;> rfl

/-- In either layout, the JSON of some declarations makes the catalog that the declarations make
themselves, or fails for the same reason, which is never that it cannot be read.  A declaration is
read back from its own JSON. -/
theorem Catalog.ofSource_encodeAll (decls : List TypeDecl) :
    ofSource (.ofString (TypeDecl.encodeAll decls).compact) = (ofDecls decls).mapError .catalog ∧
    ofSource (.ofString (TypeDecl.encodeAll decls).pretty) = (ofDecls decls).mapError .catalog ∧
    ∀ d : TypeDecl, (Reader.typeDecl 0).run (.ofString d.encode.compact) = .ok d ∧
      (Reader.typeDecl 0).run (.ofString d.encode.pretty) = .ok d :=
  ⟨ofSource_of_spells (Json.spells_compactChars _),
    ofSource_of_spells (Json.spells_prettyChars 0 _),
    fun _ => ⟨TypeDecl.run_of_spells (Json.spells_compactChars _),
      TypeDecl.run_of_spells (Json.spells_prettyChars 0 _)⟩⟩

end Schemata
