import Schemata.Catalog.Basic

/-! # Names of components

Every record of a document is a component, under a name made of the letters, digits, dots,
underscores and hyphens that a reference may contain.  A type gets its name when it is first asked
for: its short name if that is free, else its qualified name, else the qualified name with the least
number behind it that makes it free. -/

namespace Schemata

/-- Whether a character may stand in the name of a component. -/
def isNameChar (c : Char) : Bool :=
  ('A' ≤ c && c ≤ 'Z') || ('a' ≤ c && c ≤ 'z') || ('0' ≤ c && c ≤ '9')
    || c = '.' || c = '_' || c = '-'

/-- A text with an underscore for each character that must not stand in the name of a component. -/
def sanitizeName (s : String) : String :=
  String.ofList (s.toList.map fun c => if isNameChar c then c else '_')

/-- The names given to types so far, oldest first. -/
structure NameTable where
  entries : List (TypeId × String) := []
  deriving Repr, DecidableEq, Inhabited

namespace NameTable

/-- The name of a type that has one. -/
def name? (table : NameTable) (t : TypeId) : Option String :=
  (table.entries.find? (·.1 = t)).map (·.2)

/-- The names that are taken. -/
def names (table : NameTable) : List String := table.entries.map (·.2)

/-- The name with a number behind it. -/
def numbered (base : String) (n : Nat) : String := base ++ "_" ++ toString n

/-- The first of `base_n`, `base_(n+1)`, … that is not taken, among the first `tries` of them. -/
def firstFree (taken : List String) (base : String) : (tries n : Nat) → String
  | 0, n => numbered base n
  | tries + 1, n =>
    if numbered base n ∈ taken then firstFree taken base tries (n + 1) else numbered base n

/-- The name for a type that has none yet.  One of the numbers tried is free, since there are as
many as names are taken, and one more. -/
def fresh (taken : List String) (simpleName qualified : String) : String :=
  -- the qualified name is looked at only if the short one is taken
  let simple := sanitizeName simpleName
  if simple ∈ taken then
    let base := sanitizeName qualified
    if base ∈ taken then firstFree taken base taken.length 2 else base
  else simple

/-- The name of a type, and the table that knows it. -/
def request (table : NameTable) (c : Catalog) (t : TypeId) : String × NameTable :=
  match table.name? t with
  | some name => (name, table)
  | none =>
    let name := fresh table.names (c.simpleName t) (c.name t)
    (name, ⟨table.entries ++ [(t, name)]⟩)

end NameTable

end Schemata
