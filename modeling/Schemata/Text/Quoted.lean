import Schemata.Text.Lowercase
import Schemata.Text.PrintTable

/-! # Quoted texts in messages

A text quoted in a message stands between double quotes.  Characters that would not be seen, or that
would be taken for the end of the quotation, are written as escapes. -/

namespace Schemata.Text

/-- Whether a character is seen by itself: it has a place in a printed text, and is no mark on the
character in front of it. -/
def isShown (c : Char) : Bool :=
  inRanges printableRanges c.toNat && !inRanges extendingMarkRanges c.toNat

/-- The digits of a number to base sixteen, in lower case. -/
def hexDigits (n : Nat) : String := String.ofList (Nat.toDigits 16 n)

/-- How a character is written inside a quotation. -/
def quotedChar (c : Char) : String :=
  match c with
  | '\x00' => "\\0"
  | '\t' => "\\t"
  | '\n' => "\\n"
  | '\r' => "\\r"
  | '"' => "\\\""
  | '\\' => "\\\\"
  | c => if isShown c then c.toString else "\\u\x7b" ++ hexDigits c.toNat ++ "\x7d"

/-- A text between double quotes, with escapes where needed. -/
def quoted (s : String) : String :=
  "\"" ++ String.join (s.toList.map quotedChar) ++ "\""

end Schemata.Text
