import Schemata.Json.Printer
import Mathlib.Data.List.Forall2

/-!
# Texts that spell a JSON value

`Json.Spells` says which texts write a value, with blanks wherever they may stand between tokens.
Both printers write such texts, so what is read from every text that spells a value is read from
what they write.

## Key results

- `listed_joinWith`: pieces that are joined with commas are listed
- `spells_compactChars` / `spells_prettyChars`: the printers spell the values they are given
-/

namespace Schemata.Json

/-! ## Lists of pieces -/

/-- Characters that may stand between tokens. -/
def Blank (ws : List Char) : Prop := ∀ c ∈ ws, c = ' ' ∨ c = '\n' ∨ c = '\t' ∨ c = '\r'

/-- There may be no blanks at all. -/
theorem blank_nil : Blank [] := fun _ h => nomatch h

/-- One space may stand between tokens. -/
private theorem blank_singleton : Blank [' '] := by simp [Blank]

/-- So may the end of a line with the indentation of the next one. -/
private theorem blank_newLine (level : Nat) : Blank (newLine level) := by
  intro c hc
  rcases List.mem_cons.mp hc with rfl | hc
  · simp
  · simp [List.eq_of_mem_replicate hc]

/-- What follows an opening bracket (`first`), or a piece of a list: the pieces that are left, each
of which satisfies its predicate, with commas between them, and the closing bracket. -/
def Listed (closing : Char) : (first : Bool) → List (List Char → Prop) → List Char → Prop
  | _, [], text => ∃ ws, Blank ws ∧ text = ws ++ [closing]
  | true, P :: Ps, text => ∃ ws piece rest, Blank ws ∧ P piece ∧ Listed closing false Ps rest ∧
      text = ws ++ (piece ++ rest)
  | false, P :: Ps, text => ∃ before after piece rest, Blank before ∧ Blank after ∧ P piece ∧
      Listed closing false Ps rest ∧ text = before ++ ',' :: (after ++ (piece ++ rest))

/-- A list without pieces is its closing bracket, with blanks in front. -/
theorem listed_nil_iff {closing : Char} {first : Bool} {text : List Char} :
    Listed closing first [] text ↔ ∃ ws, Blank ws ∧ text = ws ++ [closing] := by
  cases first <;> rfl

/-- A list takes a character for each piece that is left, but for the first one, and one more. -/
private theorem Listed.length_le {closing : Char} {Ps : List (List Char → Prop)} {text : List Char}
    (h : Listed closing false Ps text) : Ps.length + 1 ≤ text.length := by
  -- on the pieces, each of which comes behind a comma
  induction Ps generalizing text with
  | nil =>
    obtain ⟨ws, _, rfl⟩ := h
    simp
  | cons P Ps ih =>
    obtain ⟨before, after, piece, rest, _, _, _, hrest, rfl⟩ := h
    have := ih hrest
    simp only [List.length_cons, List.length_append]
    omega

/-- So there are no more pieces than characters. -/
theorem Listed.length_le_of_first {closing : Char} {Ps : List (List Char → Prop)}
    {text : List Char} (h : Listed closing true Ps text) : Ps.length ≤ text.length := by
  cases Ps with
  | nil => exact Nat.zero_le _
  | cons P Ps =>
    obtain ⟨ws, piece, rest, _, _, hrest, rfl⟩ := h
    have := hrest.length_le
    simp only [List.length_cons, List.length_append]
    omega

/-- Joined pieces are the first one, and the others with a separator in front of each. -/
private theorem joinWith_cons (separator piece : List Char) (rest : List (List Char)) :
    joinWith separator (piece :: rest) = piece ++ rest.flatMap (separator ++ ·) := by
  induction rest generalizing piece with
  | nil => simp [joinWith]
  | cons next rest ih => simp [joinWith, ih, List.append_assoc]

section Join

variable {closing : Char} {gap last : List Char} {Ps : List (List Char → Prop)}
  {pieces : List (List Char)}

/-- Pieces behind a comma each are the end of a list. -/
private theorem listed_flatMap (hgap : Blank gap) (hlast : Blank last)
    (h : List.Forall₂ (fun P piece => P piece) Ps pieces) :
    Listed closing false Ps (pieces.flatMap ((',' :: gap) ++ ·) ++ (last ++ [closing])) := by
  -- on the pieces; each has a comma in front, and the closing bracket comes last
  induction h with
  | nil => exact ⟨last, hlast, rfl⟩
  | @cons P piece Ps pieces hpiece _ ih =>
    exact ⟨[], gap, piece, _, blank_nil, hgap, hpiece, ih, by simp⟩

/-- Pieces that are joined with commas are listed. -/
theorem listed_joinWith (hgap : Blank gap) (hlast : Blank last)
    (h : List.Forall₂ (fun P piece => P piece) Ps pieces) (hne : pieces ≠ []) :
    Listed closing true Ps (gap ++ joinWith (',' :: gap) pieces ++ (last ++ [closing])) := by
  cases h with
  | nil => exact absurd rfl hne
  | @cons P piece Ps pieces hpiece hrest =>
    refine ⟨gap, piece, _, hgap, hpiece, listed_flatMap hgap hlast hrest, ?_⟩
    rw [joinWith_cons]
    simp only [List.append_assoc]

end Join

/-! ## Values -/

/-- A text writes a member: its name, a colon and its value. -/
def SpellsMember (name : String) (P : List Char → Prop) (text : List Char) : Prop :=
  ∃ before after value, Blank before ∧ Blank after ∧ P value ∧
    text = stringChars name ++ (before ++ ':' :: (after ++ value))

mutual

/-- A text writes a value, with blanks between tokens only. -/
def Spells : Json → List Char → Prop
  | .null => fun text => text = ['n', 'u', 'l', 'l']
  | .bool true => fun text => text = ['t', 'r', 'u', 'e']
  | .bool false => fun text => text = ['f', 'a', 'l', 's', 'e']
  | .number value => fun text => text = value.text.toList
  | .string value => fun text => text = stringChars value
  | .array items => fun text =>
    ∃ inner, text = '[' :: inner ∧ Listed ']' true (itemSpellings items) inner
  | .object members => fun text =>
    ∃ inner, text = '{' :: inner ∧ Listed '}' true (memberSpellings members) inner

/-- How each item may be written. -/
def itemSpellings : List Json → List (List Char → Prop)
  | [] => []
  | item :: rest => Spells item :: itemSpellings rest

/-- How each member may be written. -/
def memberSpellings : List (String × Json) → List (List Char → Prop)
  | [] => []
  | (name, value) :: rest => SpellsMember name (Spells value) :: memberSpellings rest

end

/-- Items are spelled one by one. -/
theorem itemSpellings_eq (items : List Json) : itemSpellings items = items.map Spells := by
  induction items with
  | nil => rfl
  | cons item rest ih => rw [itemSpellings, ih, List.map_cons]

/-- Members are spelled one by one, with their names. -/
theorem memberSpellings_eq (members : List (String × Json)) :
    memberSpellings members = members.map fun m => SpellsMember m.1 (Spells m.2) := by
  induction members with
  | nil => rfl
  | cons m rest ih => rw [memberSpellings, ih, List.map_cons]

/-! ## Printers -/

/-- Pieces between brackets, without blanks. -/
theorem listed_compact {closing : Char} {Ps : List (List Char → Prop)} {pieces : List (List Char)}
    (h : List.Forall₂ (fun P piece => P piece) Ps pieces) :
    Listed closing true Ps (joinWith [','] pieces ++ [closing]) := by
  cases pieces with
  | nil =>
    cases h
    exact ⟨[], blank_nil, rfl⟩
  | cons piece rest => exact listed_joinWith blank_nil blank_nil h (List.cons_ne_nil _ _)

mutual

/-- What is written without blanks spells the value. -/
theorem spells_compactChars : ∀ j : Json, j.Spells (compactChars j)
  | .null => rfl
  | .bool true => rfl
  | .bool false => rfl
  | .number _ => rfl
  | .string _ => rfl
  | .array items => ⟨_, rfl, listed_compact (spells_compactItems items)⟩
  | .object members => ⟨_, rfl, listed_compact (spells_compactMembers members)⟩

/-- So do the items of an array. -/
theorem spells_compactItems : ∀ items : List Json,
    List.Forall₂ (fun P piece => P piece) (itemSpellings items) (compactItems items)
  | [] => .nil
  | item :: rest => .cons (spells_compactChars item) (spells_compactItems rest)

/-- So do the members of an object. -/
theorem spells_compactMembers : ∀ members : List (String × Json),
    List.Forall₂ (fun P piece => P piece) (memberSpellings members) (compactMembers members)
  | [] => .nil
  | (_, value) :: rest =>
    .cons ⟨[], [], compactChars value, blank_nil, blank_nil, spells_compactChars value, rfl⟩
      (spells_compactMembers rest)

end

/-- Pieces between brackets, each on a line of its own. -/
theorem listed_blockChars (left : Char) {right : Char} (level : Nat)
    {Ps : List (List Char → Prop)} {pieces : List (List Char)}
    (h : List.Forall₂ (fun P piece => P piece) Ps pieces) :
    ∃ inner, blockChars left right level pieces = left :: inner ∧ Listed right true Ps inner := by
  unfold blockChars
  cases pieces with
  | nil =>
    cases h
    exact ⟨[right], rfl, [], blank_nil, rfl⟩
  | cons piece rest =>
    refine ⟨_, rfl, ?_⟩
    rw [List.append_assoc _ (newLine level)]
    exact listed_joinWith (blank_newLine _) (blank_newLine _) h (List.cons_ne_nil _ _)

mutual

/-- So does what is written on indented lines. -/
theorem spells_prettyChars (level : Nat) : ∀ j : Json, j.Spells (prettyChars level j)
  | .null => rfl
  | .bool true => rfl
  | .bool false => rfl
  | .number _ => rfl
  | .string _ => rfl
  | .array items => listed_blockChars '[' level (spells_prettyItems (level + 1) items)
  | .object members => listed_blockChars '{' level (spells_prettyMembers (level + 1) members)

/-- The items of an array, on lines of their own. -/
theorem spells_prettyItems (level : Nat) : ∀ items : List Json,
    List.Forall₂ (fun P piece => P piece) (itemSpellings items) (prettyItems level items)
  | [] => .nil
  | item :: rest => .cons (spells_prettyChars level item) (spells_prettyItems level rest)

/-- The members of an object, on lines of their own. -/
theorem spells_prettyMembers (level : Nat) : ∀ members : List (String × Json),
    List.Forall₂ (fun P piece => P piece) (memberSpellings members) (prettyMembers level members)
  | [] => .nil
  | (_, value) :: rest =>
    .cons ⟨[], [' '], prettyChars level value, blank_nil, blank_singleton,
        spells_prettyChars level value, rfl⟩
      (spells_prettyMembers level rest)

end

end Schemata.Json
