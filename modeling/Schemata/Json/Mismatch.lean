import Schemata.Json.Basic
import Schemata.Text.Quoted

/-! # Why a JSON text is refused

A text can end inside a value, be malformed, or be a JSON value that does not fit what is asked
for. -/

namespace Schemata

/-- What was found where something else was expected. -/
inductive Found where
  | null
  | bool (value : Bool)
  | number (value : Number)
  | string (value : String)
  | sequence
  | map
  deriving Repr, DecidableEq

/-- The words for what was found. -/
def Found.text : Found → String
  | .null => "null"
  | .bool value => "boolean `" ++ toString value ++ "`"
  | .number (.integer value) => "integer `" ++ toString value ++ "`"
  | .number value => "floating point `" ++ value.text ++ "`"
  | .string value => "string " ++ Text.quoted value
  | .sequence => "sequence"
  | .map => "map"

/-- What a JSON value is for a reader that expected something else. -/
def Json.found : Json → Found
  | .null => .null
  | .bool value => .bool value
  | .number value => .number value
  | .string value => .string value
  | .array _ => .sequence
  | .object _ => .map

/-- Why a JSON value does not fit. -/
inductive Mismatch where
  | wrongType (found : Found) (expected : String)
  | wrongValue (found : Found) (expected : String)
  | wrongLength (length : Nat) (expected : String)
  | missing (member : String)
  | repeated (member : String)
  | unknownVariant (name : String) (known : List String)
  deriving Repr, DecidableEq

/-- The words for why a JSON value does not fit. -/
def Mismatch.message : Mismatch → String
  | .wrongType found expected => s!"invalid type: {found.text}, expected {expected}"
  | .wrongValue found expected => s!"invalid value: {found.text}, expected {expected}"
  | .wrongLength length expected => s!"invalid length {length}, expected {expected}"
  | .missing member => s!"missing field `{member}`"
  | .repeated member => s!"duplicate field `{member}`"
  | .unknownVariant name known =>
    let list := ", ".intercalate (known.map fun k => s!"`{k}`")
    s!"unknown variant `{name}`, expected one of {list}"

/-- Why a JSON text is refused. -/
inductive ReadError where
  /-- The text ends inside a value. -/
  | ended
  /-- The text is no JSON text. -/
  | malformed
  /-- The value does not fit. -/
  | unfit (cause : Mismatch)
  deriving Repr, DecidableEq

/-- The words for why a JSON text is refused. -/
def ReadError.message : ReadError → String
  | .ended => "unexpected end of the text"
  | .malformed => "the text is not JSON"
  | .unfit cause => cause.message

end Schemata
