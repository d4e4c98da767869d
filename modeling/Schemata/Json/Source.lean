/-! # Texts that may be broken

JSON is read from a sequence of symbols.  A text gives its characters; a sequence of bytes gives the
characters it encodes in UTF-8, and a stray symbol for each byte that belongs to none. -/

namespace Schemata

/-- A character, or a byte that is not part of one. -/
inductive Symbol where
  | char (c : Char)
  | stray
  deriving Repr, DecidableEq, Inhabited

/-- The number of bytes behind a symbol. -/
def Symbol.width : Symbol → Nat
  | .char c => c.utf8Size
  | .stray => 1

/-- A text to be read. -/
abbrev Source := List Symbol

namespace Source

/-- The characters of a text. -/
def ofString (s : String) : Source := s.toList.map .char

/-- The six bits that a continuation byte carries. -/
def continuation? (b : UInt8) : Option Nat :=
  if 0x80 ≤ b && b < 0xC0 then some (b.toNat % 64) else none

/-- The character with code point `n`, if it needs as many bytes as it was given. -/
def charFrom? (least n : Nat) : Option Char :=
  if h : n.isValidChar then if least ≤ n then some (Char.ofNatAux n h) else none else none

/-- The character of more than one byte that starts with the byte `b` and goes on in `rest`, and
the number of bytes of `rest` that belong to it. -/
def multibyte? (b : UInt8) (rest : List UInt8) : Option (Char × Nat) :=
  if 0xC0 ≤ b && b < 0xE0 then
    match rest with
    | b₁ :: _ => do
      let c₁ ← continuation? b₁
      let c ← charFrom? 0x80 (b.toNat % 32 * 64 + c₁)
      return (c, 1)
    | _ => none
  else if 0xE0 ≤ b && b < 0xF0 then
    match rest with
    | b₁ :: b₂ :: _ => do
      let c₁ ← continuation? b₁
      let c₂ ← continuation? b₂
      let c ← charFrom? 0x800 ((b.toNat % 16 * 64 + c₁) * 64 + c₂)
      return (c, 2)
    | _ => none
  else if 0xF0 ≤ b && b < 0xF8 then
    match rest with
    | b₁ :: b₂ :: b₃ :: _ => do
      let c₁ ← continuation? b₁
      let c₂ ← continuation? b₂
      let c₃ ← continuation? b₃
      let c ← charFrom? 0x10000 (((b.toNat % 8 * 64 + c₁) * 64 + c₂) * 64 + c₃)
      return (c, 3)
    | _ => none
  else none

/-- The characters that a sequence of bytes encodes in UTF-8, with a stray symbol for each byte that
belongs to none. -/
def ofBytes : List UInt8 → Source
  | [] => []
  | b :: rest =>
    if b < 0x80 then .char (Char.ofNat b.toNat) :: ofBytes rest
    else
      match multibyte? b rest with
      | some (c, n) => .char c :: ofBytes (rest.drop n)
      | none => .stray :: ofBytes rest
  termination_by bytes => bytes.length
  decreasing_by all_goals simp; try omega

end Source

end Schemata
