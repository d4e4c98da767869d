import Schemata.Json.Value
import Schemata.Proofs.Json.Spelling

/-!
# What is read from a text that spells a value

`Reads r j a` says that a reader takes `a` from the front of every text that spells the JSON value
`j`, however blanks are placed, and leaves what follows.  There is one lemma for each way to make a
reader, so that what a reader of a structure takes from an object is put together from what the
readers of its members take.

## Key results

- `stringFrom_escapeChar`: an escaped character is read back
- `Reads.array`: an array is read item by item
- `objectBody_of_steps`: an object is read member by member
-/

namespace Schemata.Reader

open Json (Blank Listed Spells itemSpellings memberSpellings SpellsMember stringChars escapeChar
  blank_nil)

variable {α β σ : Type}

/-- The characters of a text, as symbols. -/
abbrev symbols (text : List Char) : Source := text.map .char

/-! ## Steps -/

section Steps

variable {r : Reader α} {f : α → Reader β} {a : α} {s s' : Source}

/-- A reader that succeeds hands on what it took, and the rest of the source. -/
theorem bind_ok (h : r s = .ok (a, s')) : (r >>= f) s = f a s' := by
  show (r s >>= fun p => f p.1 p.2) = f a s'
  rw [h]
  rfl

/-- What a reader takes may be changed, and the rest of the source stays. -/
private theorem map_ok (g : α → β) (h : r s = .ok (a, s')) : (g <$> r) s = .ok (g a, s') := by
  show (r s >>= fun p => pure (g p.1, p.2)) = .ok (g a, s')
  rw [h]
  rfl

end Steps

/-- The blanks of a text are passed over by a reader. -/
private theorem isBlank_of_blank {ws : List Char} (h : Blank ws) :
    ∀ c ∈ ws, isBlank (.char c) = true := by
  intro c hc
  rcases h c hc with rfl | rfl | rfl | rfl <;> rfl

/-- Blanks are passed over, up to the first character that is none. -/
private theorem dropWhile_blank {ws : List Char} (h : Blank ws) {c : Char}
    (hc : isBlank (.char c) = false) (rest : Source) :
    (symbols ws ++ .char c :: rest).dropWhile isBlank = .char c :: rest := by
  -- on the blanks in front
  induction ws with
  | nil => simp [hc]
  | cons w ws ih =>
    have hw := isBlank_of_blank h w List.mem_cons_self
    simp only [symbols, List.map_cons, List.cons_append, List.dropWhile_cons_of_pos hw]
    exact ih fun d hd => h d (List.mem_cons_of_mem w hd)

/-- The first character that is no blank is seen, and stays in place. -/
private theorem peekSome_eq {ws : List Char} (h : Blank ws) {c : Char}
    (hc : isBlank (.char c) = false) (rest : Source) :
    peekSome (symbols ws ++ .char c :: rest) = .ok (.char c, .char c :: rest) := by
  have hpeek : peek (symbols ws ++ .char c :: rest) = .ok (some (.char c), .char c :: rest) := by
    show Except.ok ((List.dropWhile isBlank _).head?, List.dropWhile isBlank _) = _
    rw [dropWhile_blank h hc]
    rfl
  unfold peekSome
  rw [bind_ok hpeek]
  rfl

/-- A character that was seen is dropped. -/
private theorem drop_bind {f : Unit → Reader α} (s : Symbol) (rest : Source) :
    (drop >>= f) (s :: rest) = f () rest := rfl

/-- The source may be looked at without taking anything. -/
private theorem get_bind {f : Source → Reader α} (s : Source) :
    ((get : Reader Source) >>= f) s = f s s :=
  rfl

/-- A word is read character by character. -/
private theorem word_eq (cs : List Char) (rest : Source) :
    word cs (symbols cs ++ rest) = .ok ((), rest) := by
  -- on the characters of the word
  induction cs with
  | nil => rfl
  | cons c cs ih =>
    show word (c :: cs) (.char c :: (symbols cs ++ rest)) = .ok ((), rest)
    rw [word]
    show (if Symbol.char c = .char c then (do drop; word cs) else throw .malformed :
      Reader Unit) _ = _
    rw [if_pos rfl]
    exact ih

/-! ## Strings -/

/-- The digits of an escape are read back. -/
private theorem hexDigit?_digitChar {n : Nat} (h : n < 16) :
    hexDigit? (.char (Nat.digitChar n)) = some n := by
  decide +revert

/-- A character that is written as it stands is read back. -/
private theorem stringFrom_plain {c : Char} (hquote : c ≠ '"') (hslash : c ≠ '\\')
    (hlow : ¬ c < ' ') (before : List Char) (sound : Bool) (rest : Source) :
    stringFrom before sound (.char c :: rest) = stringFrom (c :: before) sound rest := by
  rw [stringFrom, if_neg hquote, if_neg hslash, if_neg hlow]

/-- A character that is written as an escape is read back. -/
private theorem stringFrom_escape {c : Char} {rest rest' : Source}
    (h : escape rest = .ok (c, rest')) (before : List Char) (sound : Bool) :
    stringFrom before sound (.char '\\' :: rest) = stringFrom (c :: before) sound rest' := by
  rw [stringFrom, if_neg (by decide), if_pos rfl]
  -- the escape is read as the character that it stands for
  split
  · rename_i heq
    rw [h] at heq
    cases heq
    rfl
  · rename_i heq
    rw [h] at heq
    cases heq

/-- A character below the blank is read back from its code point. -/
private theorem escape_codePoint {c : Char} (h : c.toNat < 0x20) (rest : Source) :
    escape (symbols ['u', '0', '0', Nat.digitChar (c.toNat / 16), Nat.digitChar (c.toNat % 16)] ++
      rest) = .ok (c, rest) := by
  have hhigh : c.toNat / 16 < 16 := by omega
  have hlow : c.toNat % 16 < 16 := by omega
  have hzero : hexDigit? (.char '0') = some 0 := by decide
  -- the two digits are the parts of the code point
  have hvalue : ((0 * 16 + 0) * 16 + c.toNat / 16) * 16 + c.toNat % 16 = c.toNat := by omega
  have hhex : hexEscape (.char '0' :: .char '0' :: .char (Nat.digitChar (c.toNat / 16)) ::
      .char (Nat.digitChar (c.toNat % 16)) :: rest) = .ok (c.toNat, rest) := by
    rw [hexEscape, hzero, hexDigit?_digitChar hhigh, hexDigit?_digitChar hlow]
    simp only [hvalue]
  -- no half of a surrogate pair is that low
  have hlowHalf : isLowSurrogate c.toNat = false := by
    simp only [isLowSurrogate, Bool.and_eq_false_iff, decide_eq_false_iff_not]
    omega
  have hhighHalf : isHighSurrogate c.toNat = false := by
    simp only [isHighSurrogate, Bool.and_eq_false_iff, decide_eq_false_iff_not]
    omega
  show escape (.char 'u' :: .char '0' :: .char '0' :: .char _ :: .char _ :: rest) = _
  simp only [escape, hhex, hlowHalf, hhighHalf, Char.ofNat_toNat]
  rfl

/-- An escaped character is read back. -/
theorem stringFrom_escapeChar (c : Char) (before : List Char) (sound : Bool) (rest : Source) :
    stringFrom before sound (symbols (escapeChar c) ++ rest) =
      stringFrom (c :: before) sound rest := by
  unfold escapeChar
  split
  -- the characters with an escape of their own come first
  iterate 7 exact stringFrom_escape rfl before sound
  split
  -- the others are escaped by code point if they are low, and written as they stand if not
  · rename_i hlow
    exact stringFrom_escape (escape_codePoint hlow rest) before sound
  · rename_i hquote hslash _ _ _ _ _ hlow
    refine stringFrom_plain hquote hslash (fun hlt => hlow ?_) before sound rest
    exact hlt

/-- The characters of a string are read back, up to the closing quote. -/
private theorem stringFrom_flatMap (cs before : List Char) (rest : Source) :
    stringFrom before true (symbols (cs.flatMap escapeChar) ++ .char '"' :: rest) =
      .ok (String.ofList (before.reverse ++ cs), rest) := by
  -- on the characters that are left; those before them are kept backwards
  induction cs generalizing before with
  | nil =>
    show stringFrom before true (.char '"' :: rest) = _
    rw [stringFrom, if_pos rfl, if_pos rfl, List.append_nil]
  | cons c cs ih =>
    rw [List.flatMap_cons, symbols, List.map_append, List.append_assoc]
    rw [stringFrom_escapeChar, ih, List.reverse_cons, List.append_assoc]
    rfl

/-- A string is read back behind its opening quote. -/
private theorem stringBody_eq (s : String) (rest : Source) :
    stringBody (symbols (s.toList.flatMap escapeChar ++ ['"']) ++ rest) = .ok (s, rest) := by
  rw [symbols, List.map_append, List.append_assoc]
  show stringFrom [] true (symbols (s.toList.flatMap escapeChar) ++ .char '"' :: rest) = _
  rw [stringFrom_flatMap, List.reverse_nil, List.nil_append, String.ofList_toList]

/-! ## Values -/

/-- A reader takes `a` from every text that spells `j`, with blanks in front.  The text begins with
a character that tells it from a blank and from the end of an array. -/
structure Reads (r : Reader α) (j : Json) (a : α) : Prop where
  head : ∀ {text}, j.Spells text →
    ∃ c more, text = c :: more ∧ isBlank (.char c) = false ∧ c ≠ ']'
  read : ∀ {ws text} (rest : Source), Blank ws → j.Spells text →
    r (symbols (ws ++ text) ++ rest) = .ok (a, rest)

/-- What a text that spells a value looks like from its first character on. -/
private theorem symbols_append_cons (ws : List Char) (c : Char) (more : List Char) (rest : Source) :
    symbols (ws ++ c :: more) ++ rest = symbols ws ++ .char c :: (symbols more ++ rest) := by
  rw [symbols, List.map_append, List.append_assoc]
  rfl

/-- A reader that looks at the first character goes on from there. -/
theorem peekSome_bind {f : Symbol → Reader α} {ws : List Char} (h : Blank ws) {c : Char}
    (hc : isBlank (.char c) = false) (more : List Char) (rest : Source) :
    (peekSome >>= f) (symbols (ws ++ c :: more) ++ rest) =
      f (.char c) (.char c :: (symbols more ++ rest)) := by
  rw [symbols_append_cons, bind_ok (peekSome_eq h hc _)]

namespace Reads

variable {r : Reader α} {j : Json} {a : α}

/-- What follows the text stays, and no blanks need to stand in front. -/
private theorem read_append (h : Reads r j a) {text : List Char} (htext : j.Spells text)
    (more : List Char) (rest : Source) :
    r (symbols (text ++ more) ++ rest) = .ok (a, symbols more ++ rest) := by
  have hread := h.read (symbols more ++ rest) blank_nil htext
  rwa [List.nil_append, ← List.append_assoc, ← List.map_append] at hread

/-- A string is read back, whatever the reader expects. -/
private theorem stringAs (expected s : String) :
    Reads (Reader.stringAs expected) (.string s) s where
  head := by
    rintro _ rfl
    exact ⟨'"', _, rfl, rfl, by decide⟩
  read rest hws := by
    rintro rfl
    unfold Reader.stringAs
    rw [stringChars, peekSome_bind hws rfl]
    exact stringBody_eq s rest

/-- A string is read back. -/
theorem string (s : String) : Reads Reader.string (.string s) s := .stringAs "a string" s

/-- A truth value is read back. -/
theorem bool (b : Bool) : Reads Reader.bool (.bool b) b where
  head := by
    intro text htext
    cases b <;> cases htext
    · exact ⟨'f', _, rfl, rfl, by decide⟩
    · exact ⟨'t', _, rfl, rfl, by decide⟩
  read rest hws htext := by
    unfold Reader.bool
    cases b <;> cases htext <;> rw [peekSome_bind hws rfl]
    · exact map_ok (fun _ => false) (word_eq ['a', 'l', 's', 'e'] rest)
    · exact map_ok (fun _ => true) (word_eq ['r', 'u', 'e'] rest)

/-- A name that stands for a member of a type is read back. -/
theorem named [Named α] {a : α} (ha : Named.ofName? (Named.name a) = some a) :
    Reads (Reader.named α) (.string (Named.name a)) a where
  head := (string (Named.name a)).head
  read {ws text} rest hws htext := by
    have hname := (string (Named.name a)).read rest blank_nil rfl
    obtain rfl : text = stringChars (Named.name a) := htext
    unfold Reader.named
    rw [stringChars, peekSome_bind hws rfl]
    show (Reader.string >>= fun name => fit (memberNamed α name))
      (symbols ([] ++ stringChars (Named.name a)) ++ rest) = _
    rw [bind_ok hname, memberNamed, ha]
    rfl

/-- A string is read as something. -/
theorem optional_string (s : String) :
    Reads (Reader.optional Reader.string) (.string s) (some s) where
  head := (string s).head
  read {ws text} rest hws htext := by
    have hstring := (string s).read rest blank_nil rfl
    obtain rfl : text = stringChars s := htext
    unfold Reader.optional
    rw [stringChars, peekSome_bind hws rfl, if_neg (by decide)]
    exact map_ok some hstring

end Reads

/-! ## Arrays -/

section Arrays

variable {ws : List Char} {c : Char}

/-- There is no item in front of the closing bracket. -/
private theorem nextItem_end (h : Blank ws) (first : Bool) (rest : Source) :
    nextItem first (symbols (ws ++ [']']) ++ rest) = .ok (false, .char ']' :: rest) := by
  unfold nextItem
  rw [peekSome_bind h rfl, if_pos rfl]
  rfl

/-- There is an item in front of anything else but the closing bracket. -/
private theorem nextItem_first (h : Blank ws) (hc : isBlank (.char c) = false) (hclosing : c ≠ ']')
    (more : List Char) (rest : Source) :
    nextItem true (symbols (ws ++ c :: more) ++ rest) =
      .ok (true, symbols (c :: more) ++ rest) := by
  unfold nextItem
  rw [peekSome_bind h hc, if_neg (by simpa using hclosing), if_pos rfl]
  rfl

/-- There is an item behind a comma. -/
private theorem nextItem_comma {before : List Char} (hbefore : Blank before) (h : Blank ws)
    (hc : isBlank (.char c) = false) (hclosing : c ≠ ']') (more : List Char) (rest : Source) :
    nextItem false (symbols (before ++ ',' :: (ws ++ c :: more)) ++ rest) =
      .ok (true, symbols (c :: more) ++ rest) := by
  unfold nextItem
  rw [peekSome_bind hbefore rfl, if_neg (by decide), if_neg (by decide), if_pos rfl]
  rw [drop_bind, peekSome_bind h hc, if_neg (by simpa using hclosing)]
  rfl

/-- A reader moves to a piece that is listed, behind the blanks and the comma in front of it. -/
private theorem nextItem_of_listed {first : Bool} {P : List Char → Prop}
    {Ps : List (List Char → Prop)} {text : List Char} (h : Listed ']' first (P :: Ps) text)
    (hhead : ∀ {piece}, P piece →
      ∃ c more, piece = c :: more ∧ isBlank (.char c) = false ∧ c ≠ ']') :
    ∃ piece more, P piece ∧ Listed ']' false Ps more ∧ ∀ rest,
      nextItem first (symbols text ++ rest) = .ok (true, symbols (piece ++ more) ++ rest) := by
  -- the first piece has no comma in front
  cases first with
  | true =>
    obtain ⟨ws, piece, more, hws, hpiece, hmore, rfl⟩ := h
    obtain ⟨c, tail, rfl, hc, hclosing⟩ := hhead hpiece
    exact ⟨_, more, hpiece, hmore, nextItem_first hws hc hclosing _⟩
  | false =>
    obtain ⟨before, after, piece, more, hbefore, hafter, hpiece, hmore, rfl⟩ := h
    obtain ⟨c, tail, rfl, hc, hclosing⟩ := hhead hpiece
    exact ⟨_, more, hpiece, hmore, nextItem_comma hbefore hafter hc hclosing _⟩

variable {r : Reader α} {js : List Json} {as : List α}

/-- The items that are left are read, if there is fuel for each and for the end. -/
private theorem itemsFrom_of_listed (hjs : List.Forall₂ (Reads r) js as) {first : Bool}
    {text : List Char} {fuel : Nat} (htext : Listed ']' first (itemSpellings js) text)
    (hfuel : js.length < fuel) (rest : Source) :
    itemsFrom r fuel first (symbols text ++ rest) = .ok (as, .char ']' :: rest) := by
  obtain ⟨fuel, rfl⟩ := Nat.exists_eq_succ_of_ne_zero (Nat.ne_zero_of_lt hfuel)
  -- on the items that are left, with one step of fuel for each
  induction hjs generalizing first text fuel with
  | nil =>
    obtain ⟨ws, hws, rfl⟩ := Json.listed_nil_iff.mp htext
    rw [itemsFrom, bind_ok (nextItem_end hws first rest)]
    rfl
  | @cons j a js as hj _ ih =>
    obtain ⟨piece, more, hpiece, hmore, hnext⟩ := nextItem_of_listed htext hj.head
    have hlength : js.length < fuel := Nat.lt_of_succ_lt_succ hfuel
    obtain ⟨fuel, rfl⟩ := Nat.exists_eq_succ_of_ne_zero (Nat.ne_zero_of_lt hlength)
    rw [itemsFrom, bind_ok (hnext rest), if_pos rfl, bind_ok (hj.read_append hpiece more rest)]
    exact map_ok (fun as => a :: as) (ih hmore fuel hlength)

/-- The items of an array are read behind its opening bracket. -/
private theorem arrayBody_of_listed (hjs : List.Forall₂ (Reads r) js as) {text : List Char}
    (htext : Listed ']' true (itemSpellings js) text) (rest : Source) :
    arrayBody r (symbols text ++ rest) = .ok (as, rest) := by
  -- there are no more items than characters, so there is fuel enough
  have hfuel : js.length < (symbols text ++ rest).length + 1 := by
    have hlength := htext.length_le_of_first
    rw [Json.itemSpellings_eq, List.length_map] at hlength
    rw [List.length_append, List.length_map]
    omega
  unfold arrayBody
  rw [get_bind, bind_ok (itemsFrom_of_listed hjs htext hfuel rest)]
  rfl

/-- An array is read back item by item. -/
theorem Reads.array (hjs : List.Forall₂ (Reads r) js as) :
    Reads (Reader.array r) (.array js) as where
  head := by
    rintro _ ⟨inner, rfl, _⟩
    exact ⟨'[', inner, rfl, rfl, by decide⟩
  read rest hws := by
    rintro ⟨inner, rfl, hinner⟩
    unfold Reader.array
    rw [peekSome_bind hws rfl, if_pos rfl, drop_bind]
    exact arrayBody_of_listed hjs hinner rest

/-- So is a list whose items are read back one by one. -/
theorem Reads.array_map {encode : α → Json} (h : ∀ a, Reads r (encode a) a) (as : List α) :
    Reads (Reader.array r) (.array (as.map encode)) as := by
  refine .array ?_
  rw [List.forall₂_map_left_iff]
  exact List.forall₂_same.mpr fun a _ => h a

end Arrays

/-! ## Any value -/

/-- A string is read as it stands. -/
theorem Reads.value_string (room : Nat) (s : String) :
    Reads (value room) (.string s) (.string s) where
  head := (Reads.string s).head
  read {ws text} rest hws htext := by
    have hvalue (inner : Option (Reader Json)) :
        valueWith inner (symbols (ws ++ stringChars s) ++ rest) = .ok (.string s, rest) := by
      unfold valueWith
      rw [stringChars, peekSome_bind hws rfl]
      exact map_ok Json.string (stringBody_eq s rest)
    obtain rfl : text = stringChars s := htext
    -- a string needs no room
    cases room <;> exact hvalue _

/-- An array of strings is read as it stands, if there is room for one bracket. -/
theorem Reads.value_strings (room : Nat) (ss : List String) :
    Reads (value (room + 1)) (.strings ss) (.strings ss) where
  head := by
    rintro _ ⟨inner, rfl, _⟩
    exact ⟨'[', inner, rfl, rfl, by decide⟩
  read rest hws := by
    rintro ⟨inner, rfl, hinner⟩
    have hitems : List.Forall₂ (Reads (value room)) (ss.map .string) (ss.map .string) := by
      rw [List.forall₂_map_left_iff, List.forall₂_map_right_iff]
      exact List.forall₂_same.mpr fun s _ => value_string room s
    rw [value]
    unfold valueWith
    rw [peekSome_bind hws rfl]
    exact map_ok Json.array (arrayBody_of_listed hitems hinner rest)

/-! ## Objects -/

/-- A reader takes `a` from every text that writes a colon and the value `j` behind the name of a
member. -/
def ReadsMember (r : Reader α) (j : Json) (a : α) : Prop :=
  ∀ ⦃before after text : List Char⦄ (rest : Source), Blank before → Blank after → j.Spells text →
    r (symbols (before ++ ':' :: (after ++ text)) ++ rest) = .ok (a, rest)

/-- From one state to another, a step takes each member of an object in turn. -/
def Steps (step : σ → String → Reader σ) : List (String × Json) → σ → σ → Prop
  | [], state, last => state = last
  | m :: rest, state, last =>
    ∃ next, ReadsMember (step state m.1) m.2 next ∧ Steps step rest next last

section Objects

variable {r : Reader α} {j : Json} {a : α} {name : String}

/-- A value is read behind the colon of its member. -/
theorem Reads.memberValue (h : Reads r j a) : ReadsMember (Reader.memberValue r) j a := by
  intro before after text rest hbefore hafter htext
  unfold Reader.memberValue colon
  rw [bind_assoc, peekSome_bind hbefore rfl, if_pos rfl, drop_bind]
  exact h.read rest hafter htext

/-- A member that comes for the first time is read. -/
theorem Reads.once (h : Reads r j a) (name : String) :
    ReadsMember (Reader.once name none r) j (some a) := by
  intro before after text rest hbefore hafter htext
  exact map_ok some (h.memberValue rest hbefore hafter htext)

/-- What follows the member stays. -/
private theorem ReadsMember.read_append (h : ReadsMember r j a) {before after text : List Char}
    (hbefore : Blank before) (hafter : Blank after) (htext : j.Spells text) (more : List Char)
    (rest : Source) :
    r (symbols (before ++ ':' :: (after ++ text) ++ more) ++ rest) =
      .ok (a, symbols more ++ rest) := by
  have hread := h (symbols more ++ rest) hbefore hafter htext
  rwa [← List.append_assoc, ← List.map_append] at hread

/-- What is taken from a member may be changed. -/
theorem ReadsMember.map (h : ReadsMember r j a) (g : α → β) : ReadsMember (g <$> r) j (g a) :=
  fun _ _ _ rest hbefore hafter htext => map_ok g (h rest hbefore hafter htext)

variable {step : σ → String → Reader σ} {state next last : σ} {ms ms' : List (String × Json)}

/-- One member is taken in one step. -/
theorem Steps.single {m : String × Json} (h : ReadsMember (step state m.1) m.2 last) :
    Steps step [m] state last := ⟨last, h, rfl⟩

/-- Members that follow others are taken from where those led to. -/
theorem Steps.append (h : Steps step ms state next) (h' : Steps step ms' next last) :
    Steps step (ms ++ ms') state last := by
  -- on the members that come first
  induction ms generalizing state with
  | nil =>
    cases h
    exact h'
  | cons m ms ih =>
    obtain ⟨between, hm, hrest⟩ := h
    exact ⟨between, hm, ih hrest⟩

/-- There is no name in front of the closing bracket. -/
private theorem nextName_end {ws : List Char} (h : Blank ws) (first : Bool) (rest : Source) :
    nextName first (symbols (ws ++ ['}']) ++ rest) = .ok (none, .char '}' :: rest) := by
  unfold nextName
  rw [peekSome_bind h rfl, if_pos rfl]
  rfl

/-- A name is read from its opening quote on. -/
private theorem quoted_eq {ws : List Char} (h : Blank ws) (name : String) (more : List Char)
    (rest : Source) :
    (peekSome >>= fun s => if s = .char '"' then (do drop; some <$> stringBody)
      else throw .malformed : Reader (Option String))
        (symbols (ws ++ (stringChars name ++ more)) ++ rest) =
      .ok (some name, symbols more ++ rest) := by
  have hbody := stringBody_eq name (symbols more ++ rest)
  rw [← List.append_assoc, ← List.map_append] at hbody
  rw [stringChars, List.cons_append, peekSome_bind h rfl, if_pos rfl, drop_bind]
  exact map_ok some hbody

/-- The first name is read without a comma in front. -/
private theorem nextName_first {ws : List Char} (h : Blank ws) (name : String) (more : List Char)
    (rest : Source) :
    nextName true (symbols (ws ++ (stringChars name ++ more)) ++ rest) =
      .ok (some name, symbols more ++ rest) := by
  have hname := quoted_eq blank_nil name more rest
  unfold nextName
  rw [stringChars, List.cons_append] at hname ⊢
  rw [peekSome_bind h rfl, if_neg (by decide)]
  exact hname

/-- There is a name behind a comma. -/
private theorem nextName_comma {before after : List Char} (hbefore : Blank before)
    (hafter : Blank after) (name : String) (more : List Char) (rest : Source) :
    nextName false (symbols (before ++ ',' :: (after ++ (stringChars name ++ more))) ++ rest) =
      .ok (some name, symbols more ++ rest) := by
  have hname := quoted_eq hafter name more rest
  unfold nextName
  rw [peekSome_bind hbefore rfl, if_neg (by decide)]
  exact hname

/-- A reader takes the name of a member that is listed, and stops in front of the colon. -/
private theorem nextName_of_listed {first : Bool} {P : List Char → Prop}
    {Ps : List (List Char → Prop)} {text : List Char}
    (h : Listed '}' first (SpellsMember name P :: Ps) text) :
    ∃ before after value more, Blank before ∧ Blank after ∧ P value ∧ Listed '}' false Ps more ∧
      ∀ rest, nextName first (symbols text ++ rest) =
        .ok (some name, symbols (before ++ ':' :: (after ++ value) ++ more) ++ rest) := by
  -- only the first name has no comma in front
  cases first with
  | true =>
    obtain ⟨ws, _, more, hws, ⟨before, after, value, hbefore, hafter, hvalue, rfl⟩, hmore, rfl⟩ := h
    refine ⟨before, after, value, more, hbefore, hafter, hvalue, hmore, fun rest => ?_⟩
    rw [List.append_assoc (stringChars name)]
    exact nextName_first hws name _ rest
  | false =>
    obtain ⟨comma, ws, _, more, hcomma, hws, ⟨before, after, value, hbefore, hafter, hvalue, rfl⟩,
      hmore, rfl⟩ := h
    refine ⟨before, after, value, more, hbefore, hafter, hvalue, hmore, fun rest => ?_⟩
    rw [List.append_assoc (stringChars name)]
    exact nextName_comma hcomma hws name _ rest

/-- The members that are left are read, if there is fuel for each and for the end. -/
private theorem membersFrom_of_listed (hsteps : Steps step ms state last) {first : Bool}
    {text : List Char} {fuel : Nat} (htext : Listed '}' first (memberSpellings ms) text)
    (hfuel : ms.length < fuel) (rest : Source) :
    membersFrom step fuel first state (symbols text ++ rest) = .ok (last, .char '}' :: rest) := by
  obtain ⟨fuel, rfl⟩ := Nat.exists_eq_succ_of_ne_zero (Nat.ne_zero_of_lt hfuel)
  -- on the members that are left, from the state to which those before them have led
  induction ms generalizing state first text fuel with
  | nil =>
    obtain ⟨ws, hws, rfl⟩ := Json.listed_nil_iff.mp htext
    cases hsteps
    rw [membersFrom, bind_ok (nextName_end hws first rest)]
    rfl
  | cons m ms ih =>
    obtain ⟨name, j⟩ := m
    obtain ⟨before, after, value, more, hbefore, hafter, hvalue, hmore, hnext⟩ :=
      nextName_of_listed htext
    obtain ⟨next, hread, hrest⟩ := hsteps
    have hlength : ms.length < fuel := Nat.lt_of_succ_lt_succ hfuel
    obtain ⟨fuel, rfl⟩ := Nat.exists_eq_succ_of_ne_zero (Nat.ne_zero_of_lt hlength)
    rw [membersFrom, bind_ok (hnext rest)]
    exact (bind_ok (hread.read_append hbefore hafter hvalue more rest)).trans
      (ih hrest hmore fuel hlength)

/-- A reader takes `a` from the members of an object and its closing bracket. -/
def ReadsMembers (r : Reader α) (ms : List (String × Json)) (a : α) : Prop :=
  ∀ ⦃text : List Char⦄ (rest : Source), Listed '}' true (memberSpellings ms) text →
    r (symbols text ++ rest) = .ok (a, rest)

/-- An object is read member by member behind its opening bracket. -/
theorem objectBody_of_steps (hsteps : Steps step ms state last) :
    ReadsMembers (objectBody step state) ms last := by
  intro text rest htext
  -- there are no more members than characters, so there is fuel enough
  have hfuel : ms.length < (symbols text ++ rest).length + 1 := by
    have hlength := htext.length_le_of_first
    rw [Json.memberSpellings_eq, List.length_map] at hlength
    rw [List.length_append, List.length_map]
    omega
  unfold objectBody
  rw [get_bind, bind_ok (membersFrom_of_listed hsteps htext hfuel rest)]
  rfl

namespace ReadsMembers

/-- What was taken is made use of, without reading on. -/
theorem bind (h : ReadsMembers r ms a) {f : α → Reader β} {b : β}
    (hf : ∀ s, f a s = .ok (b, s)) : ReadsMembers (r >>= f) ms b :=
  fun _ rest htext => (bind_ok (h rest htext)).trans (hf rest)

/-- An object is told by its opening bracket. -/
theorem reads (h : ReadsMembers r ms a) {other : Reader α}
    (hother : ∀ {ws more rest}, Blank ws →
      other (symbols (ws ++ '{' :: more) ++ rest) = r (symbols more ++ rest)) :
    Reads other (.object ms) a where
  head := by
    rintro _ ⟨inner, rfl, _⟩
    exact ⟨'{', inner, rfl, rfl, by decide⟩
  read rest hws := by
    rintro ⟨inner, rfl, hinner⟩
    rw [hother hws]
    exact h rest hinner

/-- So is an object that stands for a structure. -/
theorem structured (h : ReadsMembers r ms a) (expected : String) (fromArray : Reader α) :
    Reads (Reader.structured expected r fromArray) (.object ms) a := by
  refine h.reads fun {ws more rest} hws => ?_
  unfold Reader.structured
  rw [peekSome_bind hws rfl]
  rfl

end ReadsMembers

end Objects

/-- A reader takes its value from a whole text that spells it. -/
theorem Reads.run {r : Reader α} {j : Json} {a : α} (h : Reads r j a) {text : List Char}
    (htext : j.Spells text) : r.run (.ofString (String.ofList text)) = .ok a := by
  have hread := h.read [] blank_nil htext
  rw [List.nil_append, List.append_nil] at hread
  unfold Reader.run Source.ofString
  rw [String.toList_ofList]
  show (r (symbols text) >>= _) = _
  rw [hread]
  rfl

end Schemata.Reader
