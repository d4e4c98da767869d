import Schemata.Text.Lowercase

/-!
# Lower case and what stands in front

The lower-case form of a text depends on what stands in front of it in one way only: a capital sigma
is final if a letter comes before it and none after it.  Behind a word, the lower-case form of a
text is therefore the same as by itself, unless the text starts with a capital sigma that no letter
follows.

## Key results

- `lowerFrom_congr`: of the characters in front it only matters whether a letter is met
- `lowerFrom_eq_iff`: which texts have one lower-case form behind a letter and another behind none
- `lowercase_append_eq_iff`: when lower case distributes over a word in front
-/

namespace Schemata.Text

/-- Whether a text starts with a capital sigma that no letter follows.  Characters that are passed
over may come before and after it. -/
def startsWithLoneSigma (cs : List Char) : Bool :=
  match cs.dropWhile isCaseIgnorable with
  | c :: rest => c = 'Σ' && !meetsCased rest
  | [] => false

/-- A code point is in one of the ranges exactly if it lies between the ends of one. -/
private theorem inRanges_iff {ranges : Array (Nat × Nat)} {n : Nat} :
    inRanges ranges n = true ↔ ∃ r ∈ ranges.toList, r.1 ≤ n ∧ n ≤ r.2 := by
  simp only [inRanges, ← Array.any_toList, List.any_eq_true, Bool.and_eq_true, decide_eq_true_eq]

/-- A capital sigma is a letter and is not passed over. -/
@[simp]
theorem isCaseIgnorable_sigma : isCaseIgnorable 'Σ' = false := by
  rw [isCaseIgnorable, Bool.eq_false_iff, ne_eq, inRanges_iff]
  decide +kernel

/-! ## Small letters of the Latin alphabet -/

/-- The small letters of the Latin alphabet, by their code points. -/
private theorem isLower_iff {c : Char} : c.isLower = true ↔ 97 ≤ c.toNat ∧ c.toNat ≤ 122 := by
  unfold Char.isLower
  simp [UInt32.le_iff_toNat_le]

/-- A small letter is a letter that has a case. -/
theorem isCased_of_isLower {c : Char} (h : c.isLower = true) : isCased c = true := by
  have hrange : (97, 122) ∈ casedRanges.toList := by decide +kernel
  exact inRanges_iff.mpr ⟨_, hrange, isLower_iff.mp h⟩

/-- A small letter is not passed over. -/
theorem isCaseIgnorable_of_isLower {c : Char} (h : c.isLower = true) :
    isCaseIgnorable c = false := by
  -- no range of characters that are passed over reaches into the small letters
  have hranges : ∀ r ∈ caseIgnorableRanges.toList, r.2 < 97 ∨ 122 < r.1 := by decide +kernel
  rw [isCaseIgnorable, Bool.eq_false_iff, ne_eq, inRanges_iff]
  rintro ⟨r, hr, hle⟩
  have hlower := isLower_iff.mp h
  have hrange := hranges r hr
  omega

/-- A small letter stays as it is. -/
private theorem lowerChar_of_isLower {c : Char} (h : c.isLower = true) : lowerChar c = [c] := by
  have hlower := isLower_iff.mp h
  have hnot : ¬ (c.val ≥ 'A'.val ∧ c.val ≤ 'Z'.val) := by
    rintro ⟨_, hle⟩
    have hle : c.toNat ≤ 90 := UInt32.le_iff_toNat_le.mp hle
    omega
  rw [lowerChar, if_pos (by omega)]
  unfold Char.toLower
  rw [dif_neg hnot]

/-- A capital sigma is no small letter. -/
private theorem ne_sigma_of_isLower {c : Char} (h : c.isLower = true) : c ≠ 'Σ' := by
  rintro rfl
  exact absurd h (by decide)

/-! ## What stands in front -/

/-- A letter is met behind the characters that are passed over. -/
theorem meetsCased_cons (c : Char) (cs : List Char) :
    meetsCased (c :: cs) = if isCaseIgnorable c then meetsCased cs else isCased c := by
  simp only [meetsCased, List.dropWhile_cons]
  by_cases h : isCaseIgnorable c <;> simp [h]

/-- So is a capital sigma. -/
theorem startsWithLoneSigma_cons (c : Char) (cs : List Char) :
    startsWithLoneSigma (c :: cs) =
      if isCaseIgnorable c then startsWithLoneSigma cs else c = 'Σ' && !meetsCased cs := by
  simp only [startsWithLoneSigma, List.dropWhile_cons]
  by_cases h : isCaseIgnorable c <;> simp [h]

/-- Whether a letter is met behind a character only depends on whether one is met before it. -/
private theorem meetsCased_cons_congr {before before' : List Char}
    (h : meetsCased before = meetsCased before') (c : Char) :
    meetsCased (c :: before) = meetsCased (c :: before') := by
  rw [meetsCased_cons, meetsCased_cons, h]

/-- Of what stands in front, lower case depends only on whether a letter is met there. -/
theorem lowerFrom_congr {before before' : List Char} (h : meetsCased before = meetsCased before')
    (cs : List Char) : lowerFrom before cs = lowerFrom before' cs := by
  induction cs generalizing before before' with
  | nil => rfl
  | cons c cs ih => simp only [lowerFrom, lowerSigma, h, ih (meetsCased_cons_congr h c)]

/-- Behind a letter a text has another lower-case form than behind none, if it starts with a capital
sigma that no letter follows, and the same one otherwise. -/
theorem lowerFrom_eq_iff {before before' : List Char} (h : meetsCased before = true)
    (h' : meetsCased before' = false) (cs : List Char) :
    lowerFrom before cs = lowerFrom before' cs ↔ startsWithLoneSigma cs = false := by
  -- on the text, since the first character stands in front of all others
  induction cs generalizing before before' with
  | nil => simp [lowerFrom, startsWithLoneSigma]
  | cons c cs ih =>
    by_cases hskip : isCaseIgnorable c = true
    · -- a character that is passed over changes neither side
      have hne : c ≠ 'Σ' := by
        rintro rfl
        simp at hskip
      have hbefore : meetsCased (c :: before) = true := by rw [meetsCased_cons, if_pos hskip, h]
      have hbefore' : meetsCased (c :: before') = false := by rw [meetsCased_cons, if_pos hskip, h']
      simp only [lowerFrom, if_neg hne, List.append_cancel_left_eq, ih hbefore hbefore',
        startsWithLoneSigma_cons, if_pos hskip]
    · -- any other character settles what comes before the rest
      have hrest : lowerFrom (c :: before) cs = lowerFrom (c :: before') cs :=
        lowerFrom_congr (by rw [meetsCased_cons, meetsCased_cons, if_neg hskip, if_neg hskip]) cs
      by_cases hsigma : c = 'Σ'
      -- the sigma itself is written in another form, unless a letter follows
      · subst hsigma
        cases hafter : meetsCased cs <;>
          simp [lowerFrom, lowerSigma, startsWithLoneSigma_cons, hrest, h, h', hafter]
      · simp [lowerFrom, startsWithLoneSigma_cons, hrest, hskip, hsigma]

/-- A word of small letters stays as it is, and what follows it has the word in front. -/
private theorem lowerFrom_append {word : List Char} (hword : ∀ c ∈ word, c.isLower = true)
    (before cs : List Char) :
    lowerFrom before (word ++ cs) = word ++ lowerFrom (word.reverse ++ before) cs := by
  -- on the word, whose letters move to the front one by one
  induction word generalizing before with
  | nil => rfl
  | cons c word ih =>
    obtain ⟨hc, hword⟩ := List.forall_mem_cons.mp hword
    simp only [List.cons_append, lowerFrom, if_neg (ne_sigma_of_isLower hc),
      lowerChar_of_isLower hc, ih hword, List.reverse_cons, List.append_assoc, List.nil_append]

/-- Behind a word of small letters, a letter is met in front. -/
private theorem meetsCased_reverse {word : List Char} (hword : ∀ c ∈ word, c.isLower = true)
    (hne : word ≠ []) : meetsCased word.reverse = true := by
  -- the last letter of the word comes first, read backwards
  obtain ⟨rest, last, rfl⟩ := List.eq_nil_or_concat word |>.resolve_left hne
  have hlast := hword last (by simp)
  rw [List.concat_eq_append, List.reverse_concat, meetsCased_cons, isCaseIgnorable_of_isLower hlast,
    isCased_of_isLower hlast]
  rfl

/-- Lower case distributes over a word of small letters and the text behind it, unless the text
starts with a capital sigma that no letter follows. -/
theorem lowercase_append_eq_iff {word : String} (hword : ∀ c ∈ word.toList, c.isLower = true)
    (hne : word.toList ≠ []) (s : String) :
    lowercase (word ++ s) = word ++ lowercase s ↔ startsWithLoneSigma s.toList = false := by
  have hnone : meetsCased [] = false := rfl
  -- the whole word stands in front of the text on one side, and nothing on the other
  rw [← lowerFrom_eq_iff (meetsCased_reverse hword hne) hnone, ← String.toList_inj]
  simp only [lowercase, String.toList_append, String.toList_ofList, lowerFrom_append hword,
    List.append_nil, List.append_cancel_left_eq]

end Schemata.Text
