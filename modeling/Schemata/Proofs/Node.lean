import Schemata.Node
import Mathlib.Data.List.Basic

/-!
# What can be asked of a node

A node can be asked for its kind, name, properties, target, items, format and values.  A
`Node.Sheet` holds the seven answers side by side, where nothing keeps one of them from
contradicting another.  Making and editing nodes does on sheets, answer by answer, what it does on
nodes; so the answers of a node are those of some body, and fit together as far as bodies make them.

Bodies say nothing about properties, though: whatever its kind, a node takes a property.  A
reference has none unless it was given one after it had become a reference.

## Key results

- `sheet_edited`: editing sheets is editing nodes
- `edited_content_or_reference`: what the answers of a node have in common
-/

namespace Schemata.Node

/-- What a node is, without what it holds. -/
inductive Kind where
  | object
  | array
  | scalar (type : JsonType)
  | enumeration
  | reference
  deriving Repr, DecidableEq

/-- All that can be asked of a node. -/
structure Sheet where
  kind : Kind
  name : Option String := none
  properties : OrderedMap NodeId := .empty
  target : Option String := none
  items : Option NodeId := none
  format : Option String := none
  values : List String := []
  deriving Repr, DecidableEq

/-- The kind of a node. -/
def kind (n : Node) : Kind :=
  match n.body with
  | .object _ => .object
  | .array _ => .array
  | .scalar type _ => .scalar type
  | .enumeration .. => .enumeration
  | .reference _ => .reference

/-- The answers of a node. -/
def sheet (n : Node) : Sheet where
  kind := n.kind
  name := n.name?
  properties := n.properties
  target := n.target?
  items := n.items?
  format := n.format?
  values := n.values

/-- The ways in which a node is made. -/
inductive Origin where
  | object (name : String)
  | array (items : Option NodeId)
  | scalar (type : JsonType) (format : Option String)
  | enumeration (name : String) (values : List String)
  | reference (target : String)
  | placeholder
  deriving Repr, DecidableEq

/-- The node that is made. -/
def Origin.node : Origin → Node
  | .object name => .object name
  | .array items => .array items
  | .scalar type format => .scalar type format
  | .enumeration name values => .enumeration name values
  | .reference target => .reference target
  | .placeholder => .placeholder

/-- The answers of the node that is made: those that are not given are empty. -/
def Origin.sheet : Origin → Sheet
  | .object name => { kind := .object, name := some name }
  | .array items => { kind := .array, items }
  | .scalar type format => { kind := .scalar type, format }
  | .enumeration name values => { kind := .enumeration, name := some name, values }
  | .reference target => { kind := .reference, target := some target }
  | .placeholder => { kind := .reference }

/-- The ways in which a node is changed. -/
inductive Edit where
  | property (name : String) (child : NodeId)
  | reference (target : String)
  deriving Repr, DecidableEq

/-- The node that a change leaves. -/
def edit (n : Node) : Edit → Node
  | .property name child => n.addProperty name child
  | .reference target => n.toReference target

/-- The answers that a change leaves: a property changes one of them, a target all. -/
def Sheet.edit (s : Sheet) : Edit → Sheet
  | .property name child => { s with properties := s.properties.insert name child }
  | .reference target => Origin.sheet (.reference target)

/-- The node that is left by changes, one after the other. -/
def Origin.edited (o : Origin) (edits : List Edit) : Node := edits.foldl Node.edit o.node

variable {n : Node}

/-- A node that is made answers what it was made with. -/
private theorem sheet_node (o : Origin) : o.node.sheet = o.sheet := by
  cases o <;> rfl

/-- A change does to a node what it does to its answers. -/
private theorem sheet_edit (n : Node) (e : Edit) : (n.edit e).sheet = n.sheet.edit e := by
  cases e <;> rfl

/-- The answers of a node that was changed are those of the node that was made, changed alike. -/
theorem sheet_edited (o : Origin) (edits : List Edit) :
    (o.edited edits).sheet = edits.foldl Sheet.edit o.sheet := by
  rw [← sheet_node, Origin.edited]
  generalize o.node = n
  -- on the changes, from the first one
  induction edits generalizing n with
  | nil => rfl
  | cons e edits ih =>
    rw [List.foldl_cons, List.foldl_cons, ih, sheet_edit]

/-! ## Answers that exclude each other -/

/-- References are told by their kind. -/
private theorem isReference_iff : n.isReference = true ↔ n.kind = .reference := by
  obtain ⟨body, _⟩ := n
  cases body <;> simp [isReference, kind]

/-- A reference has no name, items, format or values. -/
private theorem not_content_of_reference (h : n.kind = .reference) :
    n.name? = none ∧ n.items? = none ∧ n.format? = none ∧ n.values = [] := by
  -- the kind says which body the node has
  obtain ⟨body, _⟩ := n
  cases body with
  | reference target => exact ⟨rfl, rfl, rfl, rfl⟩
  | object | array | scalar | enumeration => cases h

/-- Anything else has no target. -/
private theorem target?_of_ne_reference (h : n.kind ≠ .reference) : n.target? = none := by
  obtain ⟨body, _⟩ := n
  cases body with
  | reference target => exact absurd rfl h
  | object | array | scalar | enumeration => rfl

/-- What is not resolved is a reference without a target. -/
private theorem isResolved_eq_false_iff :
    n.isResolved = false ↔ n.kind = .reference ∧ n.target? = none := by
  obtain ⟨body, _⟩ := n
  cases body <;> simp [isResolved, kind, target?]

/-! ## Properties of references -/

/-- The last change comes after all others. -/
private theorem edited_concat (o : Origin) (edits : List Edit) (e : Edit) :
    o.edited (edits ++ [e]) = (o.edited edits).edit e := by
  rw [Origin.edited, Origin.edited, List.foldl_append]
  rfl

/-- A property is given to a reference, and the node is not turned into another reference
afterwards. -/
def KeepsProperty (o : Origin) (edits : List Edit) : Prop :=
  ∃ front name child back, edits = front ++ .property name child :: back ∧
    (o.edited front).isReference = true ∧ ∀ target, .reference target ∉ back

/-- Nothing is kept when the node is turned into a reference at the end. -/
private theorem not_keepsProperty_concat (o : Origin) (edits : List Edit) (target : String) :
    ¬ KeepsProperty o (edits ++ [.reference target]) := by
  rintro ⟨front, name, child, back, hedits, _, hback⟩
  have hlast := congrArg List.getLast? hedits
  cases back with
  | nil => simp at hlast
  | cons e rest =>
    -- the last change is the last one behind the property too
    rw [List.getLast?_concat, List.getLast?_append_cons, List.getLast?_cons_cons] at hlast
    exact hback target (List.mem_of_getLast? hlast.symm)

/-- A reference has properties exactly if it was given one that it keeps. -/
private theorem names_ne_nil_iff {o : Origin} {edits : List Edit}
    (h : (o.edited edits).isReference = true) :
    (o.edited edits).properties.names ≠ [] ↔ KeepsProperty o edits := by
  -- the last change decides: none, another target, or a property
  rcases edits.eq_nil_or_concat with rfl | ⟨edits, last, rfl⟩
  · -- whatever is made has no properties
    have hnames : (o.edited []).properties.names = [] := by cases o <;> rfl
    rw [hnames]
    refine iff_of_false (fun hne => hne rfl) ?_
    rintro ⟨front, name, child, back, hedits, _⟩
    simp at hedits
  · rw [List.concat_eq_append, edited_concat] at h ⊢
    cases last with
    | reference target =>
      exact iff_of_false (fun hne => hne rfl) (not_keepsProperty_concat o edits target)
    | property name child =>
      -- a property was given to what was a reference already
      refine iff_of_true ?_ ⟨edits, name, child, [], rfl, h, fun _ => List.not_mem_nil⟩
      show ((o.edited edits).properties.insert name child).names ≠ []
      rw [OrderedMap.names_insert]
      by_cases hmem : name ∈ (o.edited edits).properties.names
      · rw [if_pos hmem]
        exact List.ne_nil_of_mem hmem
      · simp [hmem]

/-- The answers of a node that was made and changed in any way.  They are what the same changes make
of the seven answers, each on its own.  A reference has no name, items, format or values; anything
else has no target; only a reference without a target is not resolved.  A reference has properties
exactly if one was given to it after it had become a reference, and it was not turned into another
one since. -/
theorem edited_content_or_reference (o : Origin) (edits : List Edit) :
    let n := o.edited edits
    let s := edits.foldl Sheet.edit o.sheet
    n.sheet = s ∧
    (s.kind = .reference →
      s.name = none ∧ s.items = none ∧ s.format = none ∧ s.values = [] ∧
        (s.properties.names ≠ [] ↔ KeepsProperty o edits)) ∧
    (s.kind ≠ .reference → s.target = none) ∧
    (n.isResolved = false ↔ s.kind = .reference ∧ s.target = none) := by
  intro n s
  have hsheet : n.sheet = s := sheet_edited o edits
  rw [← hsheet]
  refine ⟨rfl, fun hkind => ?_, target?_of_ne_reference, isResolved_eq_false_iff⟩
  obtain ⟨hname, hitems, hformat, hvalues⟩ := not_content_of_reference hkind
  exact ⟨hname, hitems, hformat, hvalues, names_ne_nil_iff (isReference_iff.mpr hkind)⟩

/-- A placeholder takes a property, and is then a reference that has one. -/
theorem placeholder_takes_property :
    let s := [.property "next" ⟨0⟩].foldl Sheet.edit (Origin.sheet .placeholder)
    s.kind = .reference ∧ s.properties.names = ["next"] ∧
      ¬ ∀ (o : Origin) (edits : List Edit),
        (edits.foldl Sheet.edit o.sheet).kind = .reference →
          (edits.foldl Sheet.edit o.sheet).properties.names = [] := by
  refine ⟨rfl, rfl, fun hnone => ?_⟩
  -- the placeholder with a property would have none
  have hnames := hnone .placeholder [.property "next" ⟨0⟩] rfl
  cases hnames

/-- An object loses its name and its property when it becomes a reference, and keeps what it is
given after that. -/
theorem edited_content_or_reference_object :
    let edits := [.property "next" ⟨0⟩, .reference "#/Person", .property "late" ⟨1⟩]
    let s := edits.foldl Sheet.edit (Origin.sheet (.object "Person"))
    s.kind = .reference ∧ s.name = none ∧ s.target = some "#/Person" ∧
      s.properties.names = ["late"] ∧ KeepsProperty (.object "Person") edits ∧
      (Origin.sheet (.object "Person")).target = none := by
  intro edits s
  obtain ⟨_, hreference, _⟩ := edited_content_or_reference (.object "Person") edits
  obtain ⟨_, _, hother, _⟩ := edited_content_or_reference (.object "Person") []
  obtain ⟨hname, _, _, _, hkeeps⟩ := hreference rfl
  have hnames : s.properties.names = ["late"] := by decide
  -- the kept property is read off the names, which are computed
  refine ⟨rfl, hname, rfl, hnames, hkeeps.mp ?_, hother (by decide)⟩
  show s.properties.names ≠ []
  rw [hnames]
  exact List.cons_ne_nil _ _

end Schemata.Node
