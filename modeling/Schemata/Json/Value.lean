import Schemata.Json.Typed

/-! # Reading any value

`Reader.value` reads a JSON value as it stands.  Arrays and objects may be nested to a given depth
only.  The functions behind it look into values that have been read. -/

namespace Schemata

namespace Reader

/-- Reads a value whose items and members are read by `inner`; without it, a bracket is refused. -/
def valueWith (inner : Option (Reader Json)) : Reader Json := do
  match ← peekSome with
  | .char 'n' => drop; word ['u', 'l', 'l']; return .null
  | .char 't' => drop; word ['r', 'u', 'e']; return .bool true
  | .char 'f' => drop; word ['a', 'l', 's', 'e']; return .bool false
  | .char '"' => drop; return .string (← stringBody)
  | .char '[' =>
    match inner with
    | some r =>
      drop
      return .array (← arrayBody r)
    | none => throw .malformed
  | .char '{' =>
    match inner with
    | some r =>
      drop
      let step (members : List (String × Json)) (name : String) := do
        return (name, ← memberValue r) :: members
      return .object (← objectBody step []).reverse
    | none => throw .malformed
  | s =>
    if s = .char '-' || (digit? s).isSome then return .number (← number)
    else throw .malformed

/-- Reads a value whose brackets are nested at most `room` deep. -/
def value : (room : Nat) → Reader Json
  | 0 => valueWith none
  | room + 1 => valueWith (some (value room))

/-- How deep the brackets of a text may be nested. -/
def maxNesting : Nat := 127

end Reader

namespace Json

/-- The value as a string. -/
def asString : Json → Except Mismatch String
  | .string s => .ok s
  | j => .error (.wrongType j.found "a string")

/-- The value as nothing, if it is `null`, or else as something. -/
def asOptional {α : Type} (f : Json → Except Mismatch α) : Json → Except Mismatch (Option α)
  | .null => .ok none
  | j => some <$> f j

/-- The value as an array. -/
def asArray {α : Type} (f : Json → Except Mismatch α) : Json → Except Mismatch (List α)
  | .array items => items.mapM f
  | j => .error (.wrongType j.found "a sequence")

/-- The value as the name of a member of a type. -/
def asName (α : Type) [Named α] : Json → Except Mismatch α
  | .string name => Reader.memberNamed α name
  | j => .error (.wrongType j.found "variant identifier")

/-- The value as a member of a type: its name, or an object with nothing under its name. -/
def asNamed (α : Type) [Named α] : Json → Except Mismatch α
  | .string name => Reader.memberNamed α name
  | .object [(name, content)] => do
    let a ← Reader.memberNamed α name
    match content with
    | .null | .object [] => return a
    | j => throw (.wrongType j.found "unit")
  | .object _ => .error (.wrongValue .map "map with a single key")
  | j => .error (.wrongType j.found "string or map")

/-- The member of an object, decoded, which must not come twice. -/
def member? {α : Type} (name : String) (f : Json → Except Mismatch α) :
    List (String × Json) → Except Mismatch (Option α) :=
  List.foldlM (fun before m =>
    if m.1 ≠ name then .ok before
    else if before.isSome then .error (.repeated name)
    else some <$> f m.2) none

end Json

end Schemata
