import Schemata.Catalog.Basic

/-! # Resolving declarations

`Catalog.ofDecls` turns a list of declarations into a catalog, or says what is wrong with them.
Names are checked first, in order of declaration; then every reference is resolved, declaration by
declaration; last, superclass chains and then element chains must come to an end. -/

namespace Schemata

/-- The place in a declaration that mentions another type. -/
inductive Mention where
  | element (owner : String)
  | superclass (owner : String)
  | member (name owner : String)
  deriving Repr, DecidableEq

/-- The words for a place that mentions a type. -/
def Mention.text : Mention → String
  | .element owner => s!"the elements of `{owner}`"
  | .superclass owner => s!"the superclass of `{owner}`"
  | .member name owner => s!"field `{name}` of `{owner}`"

/-- What can be wrong with a list of declarations. -/
inductive CatalogError where
  | emptyName
  | repeatedName (name : String)
  | undeclared (name : String) (mention : Mention)
  | cyclicSuperclasses (name : String)
  | cyclicElements (name : String)
  deriving Repr, DecidableEq

/-- The words for what is wrong with a list of declarations. -/
def CatalogError.message : CatalogError → String
  | .emptyName => "type declared with an empty name"
  | .repeatedName name => s!"type `{name}` is declared more than once"
  | .undeclared name mention => s!"type `{name}` referenced by {mention.text} is not declared"
  | .cyclicSuperclasses name => s!"superclass chain of `{name}` is cyclic"
  | .cyclicElements name => s!"element chain of `{name}` is cyclic"

namespace Catalog

/-- Every name is there and none is in `taken` or used twice. -/
def checkNames (taken : List String) : List TypeDecl → Except CatalogError Unit
  | [] => .ok ()
  | d :: rest =>
    if d.name = "" then .error .emptyName
    else if d.name ∈ taken then .error (.repeatedName d.name)
    else checkNames (d.name :: taken) rest

/-- The handle of `name` among `names`, the qualified names of all types in catalog order. -/
def resolve (names : List String) (name : String) (mention : Mention) :
    Except CatalogError TypeId :=
  match names.findIdx? (· = name) with
  | some i => .ok ⟨i⟩
  | none => .error (.undeclared name mention)

section
variable (find : String → Mention → Except CatalogError TypeId)

/-- Resolves a reference that may be absent, where `find` resolves names. -/
def resolveOption (mention : Mention) : Option String → Except CatalogError (Option TypeId)
  | none => .ok none
  | some name => some <$> find name mention

/-- Resolves the element type of the type named `owner`. -/
def resolveShape (owner : String) : Shape String → Except CatalogError (Shape TypeId)
  | .scalar s => .ok (.scalar s)
  | .array e => .array <$> find e (.element owner)
  | .collection e => .collection <$> resolveOption find (.element owner) e
  | .enumeration variants => .ok (.enumeration variants)
  | .record => .ok .record

/-- Resolves the type of a field of the type named `owner`. -/
def resolveMember (owner : String) (m : Member String) :
    Except CatalogError (Member TypeId) := do
  let type ← find m.type (.member m.name owner)
  return { m with type }

/-- Resolves a declaration: the elements first, then the superclass, then the fields in order. -/
def resolveDecl (d : TypeDecl) : Except CatalogError TypeDef := do
  let shape ← resolveShape find d.name d.shape
  let superclass ← resolveOption find (.superclass d.name) d.superclass
  let members ← d.members.mapM (resolveMember find d.name)
  return { name := d.name, simpleName := d.shortName, shape, superclass, members,
           methods := d.methods }

end

/-- Whether following `next` from `t` comes to an end within `steps` steps. -/
def ends (next : TypeId → Option TypeId) : (steps : Nat) → (t : TypeId) → Bool
  | 0, t => (next t).isNone
  | steps + 1, t =>
    match next t with
    | none => true
    | some u => ends next steps u

/-- Following `next` comes to an end from every type; the first type where it does not is reported.
A chain that visits no type twice has fewer steps than the catalog has types. -/
def checkChains (c : Catalog) (next : TypeId → Option TypeId) (error : String → CatalogError) :
    Except CatalogError Unit :=
  match c.ids.find? fun t => !ends next c.size t with
  | none => .ok ()
  | some t => .error (error (c.name t))

/-- The qualified names of all types, built-in ones first. -/
def allNames (decls : List TypeDecl) : List String :=
  Scalar.all.map Scalar.name ++ decls.map (·.name)

/-- The catalog of a list of declarations. -/
def ofDecls (decls : List TypeDecl) : Except CatalogError Catalog := do
  checkNames (Scalar.all.map Scalar.name) decls
  let declared ← decls.mapM (resolveDecl (resolve (allNames decls)))
  let catalog : Catalog := ⟨(builtins ++ declared).toArray⟩
  -- all superclass chains are checked before any chain of elements
  checkChains catalog catalog.superclass? .cyclicSuperclasses
  checkChains catalog catalog.element? .cyclicElements
  return catalog

end Catalog

end Schemata
