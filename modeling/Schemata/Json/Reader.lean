import Schemata.Json.Mismatch
import Schemata.Json.Numeral
import Schemata.Json.Source

/-! # Reading JSON, symbol by symbol

A `Reader` takes what it reads from the front of a source and leaves the rest.  This module reads
words, numerals and strings, and skips values that nobody asks for.  What is skipped is held to the
grammar, but not decoded: it may contain numbers that are too large, halves of surrogate pairs and
stray bytes, and it may be nested to any depth. -/

namespace Schemata

/-- Takes an `α` from the front of a source. -/
abbrev Reader (α : Type) := StateT Source (Except ReadError) α

namespace Reader

/-- Refuses the text because of its value. -/
def unfit {α : Type} (cause : Mismatch) : Reader α := throw (.unfit cause)

/-- Goes on with a value that was read, if it fits. -/
def fit {α : Type} : Except Mismatch α → Reader α
  | .ok a => pure a
  | .error cause => unfit cause

/-- Whether a symbol is a blank. -/
def isBlank : Symbol → Bool
  | .char c => c = ' ' || c = '\n' || c = '\t' || c = '\r'
  | .stray => false

/-- Passes over blanks. -/
def skipBlanks : Reader Unit := modify (·.dropWhile isBlank)

/-- The first symbol after blanks, which stays in place. -/
def peek : Reader (Option Symbol) := do
  skipBlanks
  return (← get).head?

/-- The first symbol after blanks, which stays in place; there must be one. -/
def peekSome : Reader Symbol := do
  match ← peek with
  | some s => return s
  | none => throw .ended

/-- Passes over one symbol. -/
def drop : Reader Unit := modify (·.drop 1)

/-- Passes over the character `c` if it comes next, and says whether it did. -/
def accept (c : Char) : Reader Bool := do
  if (← get).head? = some (.char c) then
    drop
    return true
  else return false

/-- Reads the given characters. -/
def word : List Char → Reader Unit
  | [] => pure ()
  | c :: rest => do
    match (← get).head? with
    | none => throw .ended
    | some s => if s = .char c then do drop; word rest else throw .malformed

/-! ## Numerals -/

/-- The value of a decimal digit. -/
def digit? : Symbol → Option Nat
  | .char c => if c.isDigit then some (c.toNat - '0'.toNat) else none
  | .stray => none

/-- The digits at the front of a source, and what follows them. -/
def spanDigits : Source → List Nat × Source
  | [] => ([], [])
  | s :: rest =>
    match digit? s with
    | some d =>
      let r := spanDigits rest
      (d :: r.1, r.2)
    | none => ([], s :: rest)

/-- Reads one digit or more.  `short` is the error for a text that ends before the first one. -/
def someDigits (short : ReadError) : Reader (List Nat) := do
  let s ← get
  match spanDigits s with
  | ([], _) => throw (if s.isEmpty then short else .malformed)
  | (digits, rest) =>
    set rest
    return digits

/-- Reads the digits before the point.  A leading zero stands alone. -/
def wholeDigits (short : ReadError) : Reader (List Nat) := do
  let digits ← someDigits short
  match digits with
  | 0 :: _ :: _ => throw .malformed
  | _ => return digits

/-- Reads a numeral. -/
def numeral (short : ReadError) : Reader Numeral := do
  let negative ← accept '-'
  let whole ← wholeDigits short
  let fraction ← if ← accept '.' then someDigits short else pure []
  -- the exponent is marked by either letter
  let lower ← accept 'e'
  let upper ← if lower then pure false else accept 'E'
  if lower || upper then
    let below ← accept '-'
    let _ ← if below then pure false else accept '+'
    let digits ← someDigits short
    return { negative, whole, fraction, exponent := some (below, digits) }
  else return { negative, whole, fraction }

/-- Reads a number. -/
def number : Reader Number := do
  match (← numeral .ended).value? with
  | some value => return value
  | none => throw .malformed

/-! ## Strings -/

/-- The value of a hexadecimal digit. -/
def hexDigit? : Symbol → Option Nat
  | .char c =>
    if '0' ≤ c && c ≤ '9' then some (c.toNat - '0'.toNat)
    else if 'a' ≤ c && c ≤ 'f' then some (c.toNat - 'a'.toNat + 10)
    else if 'A' ≤ c && c ≤ 'F' then some (c.toNat - 'A'.toNat + 10)
    else none
  | .stray => none

/-- Reads the four digits of an escape.  The text has ended if less than four bytes are left. -/
def hexEscape : Source → Except ReadError (Nat × Source)
  | a :: b :: c :: d :: rest =>
    match hexDigit? a, hexDigit? b, hexDigit? c, hexDigit? d with
    | some a, some b, some c, some d => .ok (((a * 16 + b) * 16 + c) * 16 + d, rest)
    | _, _, _, _ => .error .malformed
  | few => .error (if few.foldl (fun n s => n + s.width) 0 < 4 then .ended else .malformed)

/-- The character that a backslash and one character stand for. -/
def shortEscape? : Char → Option Char
  | '"' => some '"'
  | '\\' => some '\\'
  | '/' => some '/'
  | 'b' => some '\x08'
  | 'f' => some '\x0c'
  | 'n' => some '\n'
  | 'r' => some '\r'
  | 't' => some '\t'
  | _ => none

/-- Whether a number is the first half of a surrogate pair. -/
def isHighSurrogate (n : Nat) : Bool := 0xD800 ≤ n && n < 0xDC00

/-- Whether a number is the second half of a surrogate pair. -/
def isLowSurrogate (n : Nat) : Bool := 0xDC00 ≤ n && n < 0xE000

/-- Reads the second half of a surrogate pair, as an escape of its own. -/
def lowSurrogate : Source → Except ReadError (Nat × Source)
  | [] => .error .ended
  | [.char '\\'] => .error .ended
  | .char '\\' :: .char 'u' :: rest =>
    match hexEscape rest with
    | .ok (n, rest) => if isLowSurrogate n then .ok (n, rest) else .error .malformed
    | .error e => .error e
  | _ => .error .malformed

/-- Reads an escape behind its backslash. -/
def escape : Source → Except ReadError (Char × Source)
  | [] => .error .ended
  | .char 'u' :: rest =>
    match hexEscape rest with
    | .error e => .error e
    | .ok (n, rest) =>
      -- halves of surrogate pairs are no characters by themselves
      if isLowSurrogate n then .error .malformed
      else if isHighSurrogate n then
        match lowSurrogate rest with
        | .error e => .error e
        | .ok (m, rest) =>
          .ok (Char.ofNat (0x10000 + (n - 0xD800) * 0x400 + (m - 0xDC00)), rest)
      else .ok (Char.ofNat n, rest)
  | .char c :: rest =>
    match shortEscape? c with
    | some c => .ok (c, rest)
    | none => .error .malformed
  | .stray :: _ => .error .malformed

theorem hexEscape_length {s rest : Source} {n : Nat} (h : hexEscape s = .ok (n, rest)) :
    rest.length < s.length := by
  unfold hexEscape at h
  split at h
  · split at h
    · cases h; simp; omega
    · cases h
  · cases h

theorem lowSurrogate_length {s rest : Source} {n : Nat} (h : lowSurrogate s = .ok (n, rest)) :
    rest.length < s.length := by
  unfold lowSurrogate at h
  split at h
  · cases h
  · cases h
  · split at h
    · rename_i heq
      split at h
      · cases h
        have := hexEscape_length heq
        simp; omega
      · cases h
    · cases h
  · cases h

/-- An escape takes something from the source. -/
theorem escape_length {s rest : Source} {c : Char} (h : escape s = .ok (c, rest)) :
    rest.length < s.length := by
  unfold escape at h
  split at h
  · cases h
  · split at h
    · cases h
    · rename_i heq
      have hlt := hexEscape_length heq
      split at h
      · cases h
      · split at h
        · split at h
          · cases h
          · rename_i hlow
            have := lowSurrogate_length hlow
            simp only [Except.ok.injEq, Prod.mk.injEq] at h
            obtain ⟨-, rfl⟩ := h
            simp; omega
        · simp only [Except.ok.injEq, Prod.mk.injEq] at h
          obtain ⟨-, rfl⟩ := h
          simp; omega
  · split at h
    · simp only [Except.ok.injEq, Prod.mk.injEq] at h
      obtain ⟨-, rfl⟩ := h
      simp
    · cases h
  · cases h

/-- Reads a string behind its opening quote.  `before` holds the characters read so far, last one
first; the string is sound if no stray byte was among them. -/
def stringFrom (before : List Char) (sound : Bool) : Source → Except ReadError (String × Source)
  | [] => .error .ended
  | .stray :: rest => stringFrom before false rest
  | .char c :: rest =>
    if c = '"' then
      -- stray bytes are reported only here, behind all other problems of the string
      if sound then .ok (String.ofList before.reverse, rest) else .error .malformed
    else if c = '\\' then
      match h : escape rest with
      | .ok (c, rest') =>
        have := escape_length h
        stringFrom (c :: before) sound rest'
      | .error e => .error e
    else if c < ' ' then .error .malformed
    else stringFrom (c :: before) sound rest
  termination_by s => s.length

/-- Reads a string behind its opening quote. -/
def stringBody : Reader String := fun s => stringFrom [] true s

/-! ## Skipping -/

/-- Passes over an escape behind its backslash. -/
def skipEscape : Source → Except ReadError Source
  | [] => .error .ended
  | .char 'u' :: rest => (hexEscape rest).map (·.2)
  | .char c :: rest => if (shortEscape? c).isSome then .ok rest else .error .malformed
  | .stray :: _ => .error .malformed

theorem skipEscape_length {s rest : Source} (h : skipEscape s = .ok rest) :
    rest.length < s.length := by
  unfold skipEscape at h
  split at h
  · cases h
  · rename_i inner
    cases heq : hexEscape inner with
    | error e => rw [heq] at h; cases h
    | ok p =>
      rw [heq] at h
      obtain ⟨n, r⟩ := p
      cases h
      have := hexEscape_length heq
      simp; omega
  · split at h
    · cases h; simp
    · cases h
  · cases h

/-- Passes over a string behind its opening quote. -/
def skipStringFrom : Source → Except ReadError Source
  | [] => .error .ended
  | .stray :: rest => skipStringFrom rest
  | .char c :: rest =>
    if c = '"' then .ok rest
    else if c = '\\' then
      match h : skipEscape rest with
      | .ok rest' =>
        have := skipEscape_length h
        skipStringFrom rest'
      | .error e => .error e
    else if c < ' ' then .error .malformed
    else skipStringFrom rest
  termination_by s => s.length

/-- Passes over a string behind its opening quote. -/
def skipString : Reader Unit := fun s => (skipStringFrom s).map ((), ·)

/-- The two kinds of brackets around values. -/
inductive Bracket where
  | square
  | curly
  deriving Repr, DecidableEq

/-- The character that closes a bracket. -/
def Bracket.closing : Bracket → Char
  | .square => ']'
  | .curly => '}'

/-- Passes over a value without brackets, or over the opening bracket of one with. -/
def skipSimple : Reader (Option Bracket) := do
  match ← peekSome with
  | .char 'n' => drop; word ['u', 'l', 'l']; return none
  | .char 't' => drop; word ['r', 'u', 'e']; return none
  | .char 'f' => drop; word ['a', 'l', 's', 'e']; return none
  | .char '"' => drop; skipString; return none
  | .char '[' => drop; return some .square
  | .char '{' => drop; return some .curly
  | s =>
    if s = .char '-' || (digit? s).isSome then
      let _ ← numeral .malformed
      return none
    else throw .malformed

/-- Passes over the name of a member and its colon. -/
def skipName : Reader Unit := do
  if (← peekSome) ≠ .char '"' then throw .malformed
  drop
  skipString
  if (← peekSome) ≠ .char ':' then throw .malformed
  drop

/-- What is looked for while values are skipped: a value, or what follows one (`after`) or an
opening bracket. -/
inductive Due where
  | value
  | next (after : Bool)

/-- Passes over the rest of a value, inside the brackets `opened`.  Two steps take at least one
symbol. -/
def skipRest : (fuel : Nat) → (opened : List Bracket) → Due → Reader Unit
  | 0, _, _ => throw .malformed
  | fuel + 1, opened, .value => do
    match ← skipSimple with
    | none => skipRest fuel opened (.next true)
    | some bracket => skipRest fuel (bracket :: opened) (.next false)
  | _ + 1, [], .next _ => pure ()
  | fuel + 1, bracket :: outer, .next after => do
    let s ← peekSome
    if s = .char bracket.closing then
      drop
      -- what was closed is a value of the bracket outside
      skipRest fuel outer (.next true)
    else
      -- a comma stands between two values, and none behind an opening bracket
      if after then
        if s ≠ .char ',' then throw .malformed
        drop
      if bracket = .curly then skipName
      skipRest fuel (bracket :: outer) .value

/-- Passes over a value. -/
def skip : Reader Unit := do
  skipRest (2 * (← get).length + 2) [] .value

end Reader

end Schemata
