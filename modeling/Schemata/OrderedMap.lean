/-! # Insertion-ordered maps

`OrderedMap α` holds values under names and lists them in the order in which the names first came.
Writing a name again replaces its value and keeps its place.  The list of pairs, `entries`, is the
view through which the operations are described:

* `exchange_fst`     `(m.exchange n v).1 = m.get? n`
* `get?_insert`      reading after a write
* `names_insert`     a write adds its name at the end, or nowhere -/

namespace Schemata

universe u

/-- Values under names, in the order in which the names were first written. -/
structure OrderedMap (α : Type u) where
  /-- The pairs, oldest name first. -/
  entries : List (String × α) := []
  deriving Repr, DecidableEq

namespace OrderedMap

variable {α : Type u}

/-- The map without names. -/
def empty : OrderedMap α := {}

instance : Inhabited (OrderedMap α) := ⟨empty⟩

/-- Writes `value` under `name` in a list of pairs, and says what stood there before. -/
def exchangeIn (name : String) (value : α) : List (String × α) → Option α × List (String × α)
  | [] => (none, [(name, value)])
  | (n, v) :: rest =>
    if n = name then (some v, (n, value) :: rest)
    else
      let r := exchangeIn name value rest
      (r.1, (n, v) :: r.2)

/-- Writes `value` under `name`, and says what stood there before. -/
def exchange (m : OrderedMap α) (name : String) (value : α) : Option α × OrderedMap α :=
  let r := exchangeIn name value m.entries
  (r.1, ⟨r.2⟩)

/-- Writes `value` under `name`. -/
def insert (m : OrderedMap α) (name : String) (value : α) : OrderedMap α :=
  (m.exchange name value).2

/-- The value under `name`. -/
def get? (m : OrderedMap α) (name : String) : Option α :=
  (m.entries.find? (·.1 = name)).map (·.2)

/-- The names, in the order in which they first came. -/
def names (m : OrderedMap α) : List String := m.entries.map (·.1)

/-- The number of names. -/
def size (m : OrderedMap α) : Nat := m.entries.length

/-- Whether there is no name. -/
def isEmpty (m : OrderedMap α) : Bool := m.entries.isEmpty

/-- Writes the pairs one after the other into the empty map. -/
def ofList (pairs : List (String × α)) : OrderedMap α :=
  pairs.foldl (fun m p => m.insert p.1 p.2) empty

@[simp] theorem get?_empty (name : String) : (empty : OrderedMap α).get? name = none := rfl

@[simp] theorem names_empty : (empty : OrderedMap α).names = [] := rfl

/-- What a write hands back is what a read would have found. -/
theorem exchange_fst (m : OrderedMap α) (name : String) (value : α) :
    (m.exchange name value).1 = m.get? name := by
  obtain ⟨entries⟩ := m
  simp only [exchange, get?]
  induction entries with
  | nil => rfl
  | cons p rest ih =>
    by_cases h : p.1 = name
    · simp [exchangeIn, h]
    · simp [exchangeIn, h, ih]

/-- A read finds the last write of its name. -/
theorem get?_insert (m : OrderedMap α) (name other : String) (value : α) :
    (m.insert name value).get? other = if name = other then some value else m.get? other := by
  obtain ⟨entries⟩ := m
  simp only [insert, exchange, get?]
  induction entries with
  | nil => by_cases h : name = other <;> simp [exchangeIn, h]
  | cons p rest ih =>
    by_cases h : p.1 = name
    · by_cases ho : name = other
      · simp [exchangeIn, h, ho]
      · have hp : p.1 ≠ other := fun e => ho (h.symm.trans e)
        simp [exchangeIn, h, ho]
    · by_cases hp : p.1 = other
      · have ho : name ≠ other := fun e => h (hp.trans e.symm)
        simp only [exchangeIn, h, ho, if_false]
        simp [hp]
      · simp [exchangeIn, h, hp, ih]

/-- A write keeps the order of the names and adds its own at the end if it is new. -/
theorem names_insert (m : OrderedMap α) (name : String) (value : α) :
    (m.insert name value).names = if name ∈ m.names then m.names else m.names ++ [name] := by
  obtain ⟨entries⟩ := m
  simp only [insert, exchange, names]
  induction entries with
  | nil => simp [exchangeIn]
  | cons p rest ih =>
    by_cases h : p.1 = name
    · simp [exchangeIn, h]
    · have hn : name ≠ p.1 := fun e => h e.symm
      simp only [exchangeIn, h, if_false, List.map_cons, List.mem_cons, hn, false_or, ih]
      by_cases hm : name ∈ rest.map (·.1) <;> simp [hm]

end OrderedMap

end Schemata
