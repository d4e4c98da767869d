import Schemata.Json.Basic
import Schemata.Text.Quoted

/-! # Writing JSON

`Json.compact` writes a value without blanks, `Json.pretty` with one member or item a line, indented
by two blanks a level.  Members come in the order of the value.  In a string only quotes,
backslashes and the characters below U+0020 are escaped. -/

namespace Schemata.Json

/-- How a character is written in a JSON string. -/
def escapeChar (c : Char) : List Char :=
  match c with
  | '"' => ['\\', '"']
  | '\\' => ['\\', '\\']
  | '\x08' => ['\\', 'b']
  | '\t' => ['\\', 't']
  | '\n' => ['\\', 'n']
  | '\x0c' => ['\\', 'f']
  | '\r' => ['\\', 'r']
  | c =>
    if c.toNat < 0x20 then
      ['\\', 'u', '0', '0', Nat.digitChar (c.toNat / 16), Nat.digitChar (c.toNat % 16)]
    else [c]

/-- A JSON string. -/
def stringChars (s : String) : List Char :=
  '"' :: (s.toList.flatMap escapeChar ++ ['"'])

/-- Joins pieces with `separator` between them. -/
def joinWith (separator : List Char) : List (List Char) → List Char
  | [] => []
  | [piece] => piece
  | piece :: rest => piece ++ separator ++ joinWith separator rest

mutual

/-- The characters of a value without blanks. -/
def compactChars : Json → List Char
  | .null => ['n', 'u', 'l', 'l']
  | .bool true => ['t', 'r', 'u', 'e']
  | .bool false => ['f', 'a', 'l', 's', 'e']
  | .number value => value.text.toList
  | .string value => stringChars value
  | .array items => '[' :: (joinWith [','] (compactItems items) ++ [']'])
  | .object members => '{' :: (joinWith [','] (compactMembers members) ++ ['}'])

/-- The characters of each item. -/
def compactItems : List Json → List (List Char)
  | [] => []
  | item :: rest => compactChars item :: compactItems rest

/-- The characters of each member. -/
def compactMembers : List (String × Json) → List (List Char)
  | [] => []
  | (name, value) :: rest =>
    (stringChars name ++ ':' :: compactChars value) :: compactMembers rest

end

/-- A new line, indented by a number of levels. -/
def newLine (level : Nat) : List Char := '\n' :: List.replicate (2 * level) ' '

/-- Pieces on lines of their own between two brackets, or the brackets alone. -/
def blockChars (left right : Char) (level : Nat) (pieces : List (List Char)) : List Char :=
  if pieces.isEmpty then [left, right]
  else
    left :: (newLine (level + 1) ++ joinWith (',' :: newLine (level + 1)) pieces
      ++ newLine level ++ [right])

mutual

/-- The characters of a value on indented lines, the first line at the given level. -/
def prettyChars (level : Nat) : Json → List Char
  | .null => ['n', 'u', 'l', 'l']
  | .bool true => ['t', 'r', 'u', 'e']
  | .bool false => ['f', 'a', 'l', 's', 'e']
  | .number value => value.text.toList
  | .string value => stringChars value
  | .array items => blockChars '[' ']' level (prettyItems (level + 1) items)
  | .object members => blockChars '{' '}' level (prettyMembers (level + 1) members)

/-- The characters of each item. -/
def prettyItems (level : Nat) : List Json → List (List Char)
  | [] => []
  | item :: rest => prettyChars level item :: prettyItems level rest

/-- The characters of each member. -/
def prettyMembers (level : Nat) : List (String × Json) → List (List Char)
  | [] => []
  | (name, value) :: rest =>
    (stringChars name ++ ':' :: ' ' :: prettyChars level value) :: prettyMembers level rest

end

/-- The text of a value without blanks. -/
def compact (j : Json) : String := String.ofList (compactChars j)

/-- The text of a value on indented lines. -/
def pretty (j : Json) : String := String.ofList (prettyChars 0 j)

end Schemata.Json
