import Schemata.Named

/-! # Built-in types

The twelve types that every catalog knows without a declaration, and the form each takes in a
schema: a JSON type and, for some, a format. -/

namespace Schemata

/-- The JSON types a built-in type can take. -/
inductive JsonType where
  | boolean
  | integer
  | number
  | string
  deriving Repr, DecidableEq, Inhabited

instance : Named JsonType where
  all := [.boolean, .integer, .number, .string]
  name
    | .boolean => "boolean"
    | .integer => "integer"
    | .number => "number"
    | .string => "string"

/-- The built-in types. -/
inductive Scalar where
  | boolean
  | byte
  | short
  | int
  | long
  | float
  | double
  | decimal
  | char
  | string
  | date
  | dateTime
  deriving Repr, DecidableEq, Inhabited

instance : Named Scalar where
  all := [.boolean, .byte, .short, .int, .long, .float, .double, .decimal, .char, .string, .date,
    .dateTime]
  name
    | .boolean => "boolean"
    | .byte => "byte"
    | .short => "short"
    | .int => "int"
    | .long => "long"
    | .float => "float"
    | .double => "double"
    | .decimal => "decimal"
    | .char => "char"
    | .string => "string"
    | .date => "date"
    | .dateTime => "date-time"

namespace Scalar

/-- The built-in types in catalog order. -/
abbrev all : List Scalar := Named.all

/-- The name under which a built-in type is referred to. -/
abbrev name (s : Scalar) : String := Named.name s

/-- The JSON type that carries values of a built-in type. -/
def jsonType : Scalar → JsonType
  | .boolean => .boolean
  | .byte | .short | .int | .long => .integer
  | .float | .double | .decimal => .number
  | .char | .string | .date | .dateTime => .string

/-- The format that narrows the JSON type, if there is one. -/
def format : Scalar → Option String
  | .byte | .short | .int => some "int32"
  | .long => some "int64"
  | .float => some "float"
  | .double => some "double"
  | .date => some "date"
  | .dateTime => some "date-time"
  | .boolean | .decimal | .char | .string => none

/-- The place of a built-in type in catalog order. -/
def index (s : Scalar) : Nat := all.idxOf s

/-- A built-in type stands at its index. -/
theorem all_getElem?_index (s : Scalar) : all[s.index]? = some s := by
  cases s <;> rfl

/-- No two built-in types share a name. -/
theorem names_nodup : (all.map name).Nodup := by decide

/-- A built-in type is read back from its name. -/
theorem ofName?_name (s : Scalar) : Named.ofName? s.name = some s := by
  cases s <;> decide

end Scalar

end Schemata
