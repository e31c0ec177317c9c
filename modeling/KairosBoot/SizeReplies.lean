import KairosBoot.SlotAgreement

/-! # Reading a size that the device reports

`parse_update_size` of `kairosboot.cpp` reads the size of the super partition before it is
optimized; `parse_unsigned_variable` reads the same variable, and the other sizes, everywhere else.
Both read decimal digits, or hexadecimal digits after `0x`, but only the second one trims white
space first.  A reply without white space around it means the same to both, and so does one that is
no number (`sizes_agree_iff`). -/

namespace KairosBoot

open List

/-- `std::from_chars` into a 64-bit integer, when it has to consume the whole text. -/
def fromChars64 (base : ℕ) (digits : List Char) : Option ℕ :=
  if digits.length = 0 then none
  else (digits.mapM (digitValue base)).bind fun values =>
    let value := values.foldl (fun value digit => base * value + digit) 0
    if 2 ^ 64 - 1 < value then none else some value

/-- `parse_update_size`. -/
def parseUpdateSize (text : String) : Option ℕ :=
  if text.toList.take 2 = ['0', 'x'] ∨ text.toList.take 2 = ['0', 'X'] then
    fromChars64 16 (text.toList.drop 2)
  else fromChars64 10 text.toList

/-- What `parse_unsigned_variable` reads of a text. -/
def trimmed (text : String) : List Char :=
  (text.toList.dropWhile isTrimmed).rdropWhile isTrimmed

theorem parseUnsignedVariable_eq (text : String) : parseUnsignedVariable text
    = fromChars64 (numberBase (trimmed text)).1 (numberBase (trimmed text)).2 := rfl

/-- Without trimming, the two parsers choose the same base and the same digits. -/
theorem parseUpdateSize_eq (text : String) : parseUpdateSize text
    = fromChars64 (numberBase text.toList).1 (numberBase text.toList).2 := by
  unfold parseUpdateSize
  generalize text.toList = digits
  match digits with
  | [] => rfl
  | [_] => simp [numberBase]
  | [first, second] =>
      -- `0x` alone has no digits for one of them, and an `x` among its digits for the other
      split_ifs with h
      · simp only [take_succ_cons, take_zero, cons.injEq, and_true] at h
        rcases h with ⟨rfl, rfl⟩ | ⟨rfl, rfl⟩ <;> rfl
      · simp [numberBase]
  | first :: second :: third :: rest =>
      by_cases hfst : first = '0'
      · subst hfst
        by_cases hmark : second = 'x' ∨ second = 'X' <;> simp [numberBase, hmark]
      · have hbase : numberBase (first :: second :: third :: rest)
            = (10, first :: second :: third :: rest) := by
          unfold numberBase
          split
          · simp_all
          · rfl
        simp [hbase, hfst]

theorem digitValue_of_isTrimmed {character : Char} (h : isTrimmed character = true) (base : ℕ) :
    digitValue base character = none := by
  have hle : ∀ {a b : Char}, a ≤ b ↔ a.toNat ≤ b.toNat := Iff.rfl
  have hsmall : character.toNat ≤ 32 := by
    simp only [isTrimmed, Bool.or_eq_true, Bool.and_eq_true, decide_eq_true_eq, hle] at h
    rcases h with rfl | ⟨-, h⟩
    · decide
    · exact h.trans (by decide)
  have hlow : ∀ low : Char, 32 < low.toNat → ¬ low ≤ character := by
    intro low hlow h
    exact absurd (hle.mp h) (by omega)
  unfold digitValue
  simp [hlow '0' (by decide), hlow 'a' (by decide), hlow 'A' (by decide)]

/-- White space anywhere in the digits is not a number. -/
theorem fromChars64_eq_none {digits : List Char} {character : Char} (hmem : character ∈ digits)
    (h : isTrimmed character = true) (base : ℕ) : fromChars64 base digits = none := by
  unfold fromChars64
  rw [mapM_eq_none hmem (digitValue_of_isTrimmed h base)]
  exact ite_self none

theorem parseUpdateSize_eq_none {text : String} {character : Char} (hmem : character ∈ text.toList)
    (h : isTrimmed character = true) : parseUpdateSize text = none := by
  unfold parseUpdateSize
  split_ifs with hmark
  · rw [← take_append_drop 2 text.toList, mem_append] at hmem
    rcases hmem with hmem | hmem
    · -- the mark itself is no white space
      rcases hmark with hmark | hmark
      all_goals
        rw [hmark] at hmem
        simp only [mem_cons, not_mem_nil, or_false] at hmem
        rcases hmem with rfl | rfl <;> cases h
    · exact fromChars64_eq_none hmem h 16
  · exact fromChars64_eq_none hmem h 10

theorem exists_isTrimmed {text : String} (h : trimmed text ≠ text.toList) :
    ∃ character ∈ text.toList, isTrimmed character = true := by
  by_contra! hnone
  apply h
  have hfront : text.toList.dropWhile isTrimmed = text.toList :=
    dropWhile_eq_self_iff.mpr fun hpos => hnone _ (getElem_mem hpos)
  unfold trimmed
  rw [hfront]
  exact rdropWhile_eq_self_iff.mpr fun hne => hnone _ (getLast_mem hne)

/-- **The two parsers agree** on a reply exactly when it has no white space around it, or is no
number to the parser that trims. -/
theorem sizes_agree_iff (text : String) :
    (∀ value, parseUpdateSize text = some value ↔ parseUnsignedVariable text = some value) ↔
      trimmed text = text.toList ∨ parseUnsignedVariable text = none := by
  rw [← Option.ext_iff]
  by_cases htrimmed : trimmed text = text.toList
  · rw [parseUpdateSize_eq, parseUnsignedVariable_eq, htrimmed]
    simp
  · obtain ⟨character, hmem, h⟩ := exists_isTrimmed htrimmed
    rw [parseUpdateSize_eq_none hmem h, or_iff_right htrimmed]
    exact eq_comm

/-- A size with a blank after it is read by one parser only. -/
theorem paddedSize_read_once :
    parseUnsignedVariable "0x1000 " = some 4096 ∧ parseUpdateSize "0x1000 " = none := by
  decide +kernel

end KairosBoot
