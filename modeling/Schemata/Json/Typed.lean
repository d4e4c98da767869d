import Schemata.Json.Reader
import Schemata.Named

/-! # Reading values of an expected type

Each reader of this module knows what it wants.  A value of another type is refused with what was
found: a word, a number or a string is read to its end before it is refused, an array or an object
is refused at its bracket.  The first problem in the order of the text is the one that is reported,
whether the text is malformed there or its value does not fit. -/

namespace Schemata.Reader

variable {α σ : Type}

/-- Refuses the value that comes next, where `expected` was wanted. -/
def refuse (expected : String) : Reader α := do
  match ← peekSome with
  | .char 'n' => drop; word ['u', 'l', 'l']; unfit (.wrongType .null expected)
  | .char 't' => drop; word ['r', 'u', 'e']; unfit (.wrongType (.bool true) expected)
  | .char 'f' => drop; word ['a', 'l', 's', 'e']; unfit (.wrongType (.bool false) expected)
  | .char '"' => drop; unfit (.wrongType (.string (← stringBody)) expected)
  | .char '[' => unfit (.wrongType .sequence expected)
  | .char '{' => unfit (.wrongType .map expected)
  | s =>
    if s = .char '-' || (digit? s).isSome then
      unfit (.wrongType (.number (← number)) expected)
    else throw .malformed

/-- Reads a string where `expected` is wanted. -/
def stringAs (expected : String) : Reader String := do
  if (← peekSome) = .char '"' then do
    drop
    stringBody
  else refuse expected

/-- Reads a string. -/
def string : Reader String := stringAs "a string"

/-- Reads a truth value. -/
def bool : Reader Bool := do
  match ← peekSome with
  | .char 't' => drop; word ['r', 'u', 'e']; return true
  | .char 'f' => drop; word ['a', 'l', 's', 'e']; return false
  | _ => refuse "a boolean"

/-- Reads a natural number. -/
def natural (expected : String) : Reader Nat := do
  let s ← peekSome
  if s = .char '-' || (digit? s).isSome then
    match ← number with
    | .integer (.ofNat n) => return n
    | .integer n => unfit (.wrongValue (.number (.integer n)) expected)
    | n => unfit (.wrongType (.number n) expected)
  else refuse expected

/-- Reads `null`. -/
def unit : Reader Unit := do
  if (← peekSome) = .char 'n' then do
    drop
    word ['u', 'l', 'l']
  else refuse "unit"

/-- Reads `null` as nothing and anything else as something. -/
def optional (r : Reader α) : Reader (Option α) := do
  if (← peekSome) = .char 'n' then do
    drop
    word ['u', 'l', 'l']
    return none
  else some <$> r

/-- The member of a type with the given name. -/
def memberNamed (α : Type) [Named α] (name : String) : Except Mismatch α :=
  match Named.ofName? name with
  | some a => .ok a
  | none => .error (.unknownVariant name (Named.names α))

/-- Passes over a colon. -/
def colon : Reader Unit := do
  if (← peekSome) = .char ':' then drop else throw .malformed

/-- Reads a name that stands for a member of a type: alone, or as the only member of an object whose
value is `null`. -/
def named (α : Type) [Named α] : Reader α := do
  match ← peekSome with
  | .char '"' => fit (memberNamed α (← string))
  | .char '{' =>
    drop
    -- members of objects are named by strings, so anything else is malformed here
    if (← peekSome) ≠ .char '"' then throw .malformed
    -- an unknown name is reported before the colon is looked for
    let a ← fit (memberNamed α (← string))
    colon
    unit
    if (← peekSome) = .char '}' then drop else throw .malformed
    return a
  | _ => throw .malformed

/-! ## Arrays -/

/-- Moves to the next item of an array, or says that there is none; `first` tells that none has
been read. -/
def nextItem (first : Bool) : Reader Bool := do
  let s ← peekSome
  if s = .char ']' then return false
  -- in front of the first item nothing is passed over
  else if first then return true
  else if s = .char ',' then do
    drop
    if (← peekSome) = .char ']' then throw .malformed else return true
  else throw .malformed

/-- Reads the next item of an array, if there is one. -/
def item? (first : Bool) (r : Reader α) : Reader (Option α) := do
  if ← nextItem first then some <$> r else return none

/-- Passes over the bracket that closes an array. -/
def closeArray : Reader Unit := do
  if (← peekSome) = .char ']' then drop else throw .malformed

/-- Reads the items of an array behind its opening bracket.  Every item takes a symbol at least. -/
def itemsFrom (r : Reader α) : (fuel : Nat) → (first : Bool) → Reader (List α)
  | 0, _ => throw .malformed
  | fuel + 1, first => do
    if ← nextItem first then
      let a ← r
      let rest ← itemsFrom r fuel false
      return a :: rest
    else return []

/-- Reads an array behind its opening bracket. -/
def arrayBody (r : Reader α) : Reader (List α) := do
  let items ← itemsFrom r ((← get).length + 1) true
  closeArray
  return items

/-- Reads an array. -/
def array (r : Reader α) : Reader (List α) := do
  if (← peekSome) = .char '[' then do
    drop
    arrayBody r
  else refuse "a sequence"

/-! ## Objects -/

/-- Moves to the next member of an object and reads its name, or says that there is none; `first`
tells that none has been read. -/
def nextName (first : Bool) : Reader (Option String) := do
  let s ← peekSome
  if s = .char '}' then return none
  if !first then
    if s ≠ .char ',' then throw .malformed
    drop
  if (← peekSome) = .char '"' then
    drop
    some <$> stringBody
  else throw .malformed

/-- Reads the value of a member behind its name. -/
def memberValue (r : Reader α) : Reader α := do
  colon
  r

/-- Reads the members of an object behind its opening bracket.  `step` reads the colon and the value
of the member it is given.  Every member takes a symbol at least. -/
def membersFrom (step : σ → String → Reader σ) : (fuel : Nat) → (first : Bool) → σ → Reader σ
  | 0, _, _ => throw .malformed
  | fuel + 1, first, state => do
    match ← nextName first with
    | some name => membersFrom step fuel false (← step state name)
    | none => return state

/-- Reads an object behind its opening bracket. -/
def objectBody (step : σ → String → Reader σ) (start : σ) : Reader σ := do
  let state ← membersFrom step ((← get).length + 1) true start
  drop
  return state

/-- Reads the value of a member that must not come twice. -/
def once (name : String) (before : Option α) (r : Reader α) : Reader (Option α) :=
  if before.isSome then unfit (.repeated name) else some <$> memberValue r

/-- The value of a member that must be there. -/
def require (name : String) : Option α → Reader α
  | some a => pure a
  | none => unfit (.missing name)

/-- Reads a structure: an object, or an array of its members in order. -/
def structured (expected : String) (fromObject fromArray : Reader α) : Reader α := do
  match ← peekSome with
  | .char '{' => drop; fromObject
  | .char '[' => drop; fromArray
  | _ => refuse expected

/-! ## Whole texts -/

/-- Reads a text that holds one value and blanks. -/
def run (r : Reader α) (s : Source) : Except ReadError α := do
  let (a, rest) ← StateT.run r s
  if (rest.dropWhile isBlank).isEmpty then return a else throw .malformed

end Schemata.Reader
