import Schemata.Decimal.Shortest
import Schemata.OrderedMap

/-! # JSON values

A JSON value whose objects keep the order of their members.  Numbers are whole numbers or doubles;
a double is kept as its bit pattern, so that values can be compared. -/

namespace Schemata

/-- A number of a JSON text. -/
inductive Number where
  | integer (value : Int)
  /-- The double with the given bit pattern. -/
  | double (bits : UInt64)
  deriving Repr, DecidableEq, Inhabited

/-- Doubles are written positionally from `0.00001` to below `10 ^ 16`, and always with a point or
an exponent. -/
def Number.style : Decimal.Style := { lowest := -5, highest := 15, mark := "e", plus := "+" }

/-- The text of a number. -/
def Number.text : Number → String
  | .integer value => toString value
  | .double bits => Decimal.textOfBits Number.style bits

/-- A JSON value. -/
inductive Json where
  | null
  | bool (value : Bool)
  | number (value : Number)
  | string (value : String)
  | array (items : List Json)
  | object (members : List (String × Json))
  deriving Repr, Inhabited

namespace Json

/-- A whole number. -/
def nat (n : Nat) : Json := .number (.integer n)

/-- An array of texts. -/
def strings (items : List String) : Json := .array (items.map .string)

/-- The object of a map. -/
def ofMap (m : OrderedMap Json) : Json := .object m.entries

end Json

end Schemata
