import KairosBoot.ByteSlices
import KairosBoot.Guards
import Mathlib.Data.List.Basic
import Mathlib.Data.Nat.Bitwise

/-! # The UTF-8 validators

The repository checks UTF-8 in four places: `valid_utf8` of `artifact_source.cpp`, of
`device_selector.cpp`, of `linux_usb_topology.cpp` and of `kairosboot.cpp`.  Two of them assemble
the code point and compare it with the least one of its length, two compare the bytes with the
ranges of the standard.  All four are the loop `scan` over a function that reads one character;
a read outside the string stops it (`Stop.outside`), which the source cannot see.

`WellFormed` is the grammar of RFC 3629.  Each validator answers for every string and says
whether it is well formed (`valid_utf8_agree`). -/

namespace KairosBoot.Utf8

open Guards List

/-! ### The validators -/

inductive Stop where
  | outside | refused
  deriving DecidableEq

/-- The loop over the characters.  The fuel bounds the number of characters. -/
def scan (sequence : Bytes → ℕ → Except Stop ℕ) (value : Bytes) (fuel index : ℕ) : Option Bool :=
  if index < value.length then
    match fuel, sequence value index with
    | 0, _ => none
    | _, .error .outside => none
    | _, .error .refused => some false
    | fuel + 1, .ok length => scan sequence value fuel (index + length)
  else some true

def validUtf8 (sequence : Bytes → ℕ → Except Stop ℕ) (value : Bytes) : Option Bool :=
  scan sequence value value.length 0

def byteAt (value : Bytes) (index : ℕ) : Except Stop ℕ :=
  (orFail value[index]? .outside).map UInt8.toNat

/-- A code point with the bits of a continuation byte. -/
def push (codepoint byte : ℕ) : ℕ := codepoint <<< 6 ||| byte &&& 0x3F

/-- The continuation bytes of a code point: `count` of them from `offset` on. -/
def assemble (value : Bytes) (index : ℕ) : ℕ → ℕ → ℕ → Except Stop ℕ
  | 0, _, codepoint => .ok codepoint
  | count + 1, offset, codepoint => do
      let byte ← byteAt value (index + offset)
      failIf (byte &&& 0xC0 ≠ 0x80) .refused
      assemble value index count (offset + 1) (push codepoint byte)

/-- The length, the first bits and the least code point that a leading byte of
`artifact_source.cpp` announces. -/
def artifactLead (first : ℕ) : Option (ℕ × ℕ × ℕ) :=
  if first &&& 0xE0 = 0xC0 then some (2, first &&& 0x1F, 0x80)
  else if first &&& 0xF0 = 0xE0 then some (3, first &&& 0x0F, 0x800)
  else if first &&& 0xF8 = 0xF0 then some (4, first &&& 0x07, 0x10000)
  else none

/-- A character in `artifact_source.cpp`. -/
def artifactSequence (value : Bytes) (index : ℕ) : Except Stop ℕ := do
  let first ← byteAt value index
  if first < 0x80 then .ok 1
  else do
    let (length, codepoint, minimum) ← orFail (artifactLead first) .refused
    failIf (value.length - index < length) .refused
    let codepoint ← assemble value index (length - 1) 1 codepoint
    failIf (codepoint < minimum ∨ 0x10FFFF < codepoint ∨
      (0xD800 ≤ codepoint ∧ codepoint ≤ 0xDFFF)) .refused
    .ok length

/-- The number of continuation bytes and the first bits in `linux_usb_topology.cpp`. -/
def linuxLead (first : ℕ) : Option (ℕ × ℕ) :=
  if first &&& 0xE0 = 0xC0 then some (1, first &&& 0x1F)
  else if first &&& 0xF0 = 0xE0 then some (2, first &&& 0x0F)
  else if first &&& 0xF8 = 0xF0 then some (3, first &&& 0x07)
  else none

/-- A character in `linux_usb_topology.cpp`. -/
def linuxSequence (value : Bytes) (index : ℕ) : Except Stop ℕ := do
  let first ← byteAt value index
  if first ≤ 0x7F then .ok 1
  else do
    let (count, codepoint) ← orFail (linuxLead first) .refused
    failIf (value.length ≤ index + count) .refused
    let codepoint ← assemble value index count 1 codepoint
    failIf ((count = 1 ∧ codepoint < 0x80) ∨ (count = 2 ∧ codepoint < 0x800) ∨
      (count = 3 ∧ codepoint < 0x10000) ∨ 0x10FFFF < codepoint ∨
      (0xD800 ≤ codepoint ∧ codepoint ≤ 0xDFFF)) .refused
    .ok (count + 1)

/-- The later continuation bytes: `count` of them from `offset` on. -/
def checkTails (value : Bytes) (index : ℕ) : ℕ → ℕ → Except Stop Unit
  | 0, _ => .ok ()
  | count + 1, offset => do
      let byte ← byteAt value (index + offset)
      failIf (byte < 0x80 ∨ 0xBF < byte) .refused
      checkTails value index count (offset + 1)

/-- A character of the validators that compare ranges.  `lead` gives the number of continuation
bytes and the range of the first of them. -/
def rangeSequence (lead : ℕ → Option (ℕ × ℕ × ℕ)) (value : Bytes) (index : ℕ) : Except Stop ℕ := do
  let byte ← byteAt value index
  if byte ≤ 0x7F then .ok 1
  else do
    let (count, minimum, maximum) ← orFail (lead byte) .refused
    failIf (value.length - index - 1 < count) .refused
    let first ← byteAt value (index + 1)
    failIf (first < minimum ∨ maximum < first) .refused
    checkTails value index (count - 1) 2
    .ok (count + 1)

/-- A character in `device_selector.cpp`. -/
def selectorSequence : Bytes → ℕ → Except Stop ℕ := rangeSequence fun lead =>
  if 0xC2 ≤ lead ∧ lead ≤ 0xDF then some (1, 0x80, 0xBF)
  else if 0xE0 ≤ lead ∧ lead ≤ 0xEF then
    some (2, if lead = 0xE0 then 0xA0 else 0x80, if lead = 0xED then 0x9F else 0xBF)
  else if 0xF0 ≤ lead ∧ lead ≤ 0xF4 then
    some (3, if lead = 0xF0 then 0x90 else 0x80, if lead = 0xF4 then 0x8F else 0xBF)
  else none

/-- A character in `kairosboot.cpp`. -/
def apiSequence : Bytes → ℕ → Except Stop ℕ := rangeSequence fun lead =>
  if 0xC2 ≤ lead ∧ lead ≤ 0xDF then some (1, 0x80, 0xBF)
  else if 0xE0 ≤ lead ∧ lead ≤ 0xEF then
    if lead = 0xE0 then some (2, 0xA0, 0xBF)
    else if lead = 0xED then some (2, 0x80, 0x9F) else some (2, 0x80, 0xBF)
  else if 0xF0 ≤ lead ∧ lead ≤ 0xF4 then
    if lead = 0xF0 then some (3, 0x90, 0xBF)
    else if lead = 0xF4 then some (3, 0x80, 0x8F) else some (3, 0x80, 0xBF)
  else none

/-! ### The grammar of RFC 3629 -/

/-- A byte of `low`-`high`. -/
def In (low high : ℕ) (byte : UInt8) : Prop := low ≤ byte.toNat ∧ byte.toNat ≤ high

/-- The first two bytes of a character of three bytes. -/
def Starts3 (a b : UInt8) : Prop :=
  (In 0xE0 0xE0 a ∧ In 0xA0 0xBF b) ∨ (In 0xE1 0xEC a ∧ In 0x80 0xBF b) ∨
    (In 0xED 0xED a ∧ In 0x80 0x9F b) ∨ (In 0xEE 0xEF a ∧ In 0x80 0xBF b)

/-- The first two bytes of a character of four bytes. -/
def Starts4 (a b : UInt8) : Prop :=
  (In 0xF0 0xF0 a ∧ In 0x90 0xBF b) ∨ (In 0xF1 0xF3 a ∧ In 0x80 0xBF b) ∨
    (In 0xF4 0xF4 a ∧ In 0x80 0x8F b)

/-- The bytes of one character. -/
def Character : Bytes → Prop
  | [a] => In 0x00 0x7F a
  | [a, b] => In 0xC2 0xDF a ∧ In 0x80 0xBF b
  | [a, b, c] => Starts3 a b ∧ In 0x80 0xBF c
  | [a, b, c, d] => Starts4 a b ∧ In 0x80 0xBF c ∧ In 0x80 0xBF d
  | _ => False

/-- The strings of characters. -/
inductive WellFormed : Bytes → Prop where
  | nil : WellFormed []
  | append {c s} : Character c → WellFormed s → WellFormed (c ++ s)

/-- A string of continuation bytes. -/
def Tails : Bytes → Prop
  | [] => True
  | b :: t => In 0x80 0xBF b ∧ Tails t

variable {value s : Bytes} {index count : ℕ} {a : UInt8}

/-- The length of a character by its first byte. -/
def lengthOf (a : UInt8) : ℕ :=
  if a.toNat < 0x80 then 1 else if a.toNat < 0xE0 then 2 else if a.toNat < 0xF0 then 3 else 4

theorem lengthOf_eq (a : UInt8) : ∃ count, lengthOf a = count + 1 := by
  unfold lengthOf
  split_ifs <;> exact ⟨_, rfl⟩

theorem Character.length_eq (h : Character (a :: s)) : (a :: s).length = lengthOf a := by
  unfold lengthOf
  rcases s with _ | ⟨b, _ | ⟨c, _ | ⟨d, _ | ⟨e, s⟩⟩⟩⟩ <;>
    simp only [Character, Starts3, Starts4, In] at h
  · rw [if_pos (by omega)]; rfl
  · rw [if_neg (by omega), if_pos (by omega)]; rfl
  · rw [if_neg (by omega), if_neg (by omega), if_pos (by omega)]; rfl
  · rw [if_neg (by omega), if_neg (by omega), if_neg (by omega)]; rfl

/-- The string begins with a character at an index. -/
def Present (value : Bytes) (index : ℕ) (a : UInt8) : Prop :=
  Character ((value.drop index).take (lengthOf a))

/-- A computation returns `v` when `P` holds, and refuses otherwise. -/
def Decides {α : Type} (P : Prop) (v : α) (x : Except Stop α) : Prop :=
  (P ∧ x = .ok v) ∨ (¬ P ∧ x = .error .refused)

/-- A function reads one character of a string. -/
def Reads (sequence : Bytes → ℕ → Except Stop ℕ) : Prop :=
  ∀ value index a s, value.drop index = a :: s →
    Decides (Present value index a) (lengthOf a) (sequence value index)

/-- A well-formed string that is not empty is a character and a well-formed rest. -/
theorem wellFormed_drop (h : value.drop index = a :: s) :
    WellFormed (value.drop index) ↔
      Present value index a ∧ WellFormed (value.drop (index + lengthOf a)) := by
  unfold Present
  rw [← drop_drop]
  constructor
  · intro hs
    generalize value.drop index = v at hs h ⊢
    cases hs with
    | nil => cases h
    | @append c s hc hs =>
        cases c with
        | nil => exact hc.elim
        | cons b c =>
            cases h
            rw [← hc.length_eq, take_left, drop_left]
            exact ⟨hc, hs⟩
  · rintro ⟨hchar, hrest⟩
    rw [← take_append_drop (lengthOf a) (value.drop index)]
    exact .append hchar hrest

/-- The loop says whether the rest of the string is well formed. -/
theorem scan_eq {sequence : Bytes → ℕ → Except Stop ℕ} (h : Reads sequence) {fuel : ℕ}
    (hfuel : value.length ≤ index + fuel) :
    ∃ answer, scan sequence value fuel index = some answer ∧
      (answer = true ↔ WellFormed (value.drop index)) := by
  induction fuel generalizing index with
  | zero =>
      rw [scan, if_neg (by omega), drop_eq_nil_of_le (by omega)]
      exact ⟨true, rfl, by simp [WellFormed.nil]⟩
  | succ fuel ih =>
      unfold scan
      split
      next hlt =>
        have hdrop := drop_eq_getElem_cons hlt
        rw [wellFormed_drop hdrop]
        rcases h value index _ _ hdrop with ⟨hc, hs⟩ | ⟨hc, hs⟩
        · obtain ⟨count, hcnt⟩ := lengthOf_eq value[index]
          obtain ⟨answer, hscan, hans⟩ := @ih (index + lengthOf value[index]) (by omega)
          exact ⟨answer, by rw [hs]; exact hscan, by rw [hans, and_iff_right hc]⟩
        · exact ⟨false, by rw [hs], by simp [hc]⟩
      next hlt =>
        rw [drop_eq_nil_of_le (by omega)]
        exact ⟨true, rfl, by simp [WellFormed.nil]⟩

/-! ### Reading one character -/

section

variable {α β : Type} {P Q bad : Prop} {v : α} {w : β} {x : Except Stop α} {offset codepoint : ℕ}

theorem Decides.bind {f : α → Except Stop β} (h : Decides P v x) (hf : P → Decides Q w (f v)) :
    Decides (P ∧ Q) w (x >>= f) := by
  rcases h with ⟨hp, rfl⟩ | ⟨hp, rfl⟩
  · rw [ok_bind, Decides, and_iff_right hp]
    exact hf hp
  · exact .inr ⟨fun h => hp h.1, rfl⟩

theorem Decides.returns (h : Decides P v x) (w : β) : Decides P w (x >>= fun _ => .ok w) := by
  rcases h with ⟨hp, rfl⟩ | ⟨hp, rfl⟩
  · exact .inl ⟨hp, rfl⟩
  · exact .inr ⟨hp, rfl⟩

theorem Decides.congr (h : Decides P v x) (hiff : Q ↔ P) : Decides Q v x := by
  rwa [Decides, hiff]

theorem decides_ok (hp : P) : Decides P v (.ok v) := .inl ⟨hp, rfl⟩

theorem decides_failIf [Decidable bad] (hiff : P ↔ ¬ bad) : Decides P () (failIf bad .refused) := by
  rw [Decides, hiff]
  by_cases hb : bad
  · exact .inr ⟨not_not.mpr hb, if_pos hb⟩
  · exact .inl ⟨hb, if_neg hb⟩

theorem byteAt_eq (h : value.drop index = a :: s) : byteAt value index = .ok a.toNat := by
  have hread : value[index]? = some a := by rw [← head?_drop, h, head?_cons]
  rw [byteAt, hread]
  rfl

theorem tail_iff (b : UInt8) : In 0x80 0xBF b ↔ b.toNat &&& 0xC0 = 0x80 := by
  have h : ∀ n < 256, 0x80 ≤ n ∧ n ≤ 0xBF ↔ n &&& 0xC0 = 0x80 := by decide +kernel
  exact h _ b.toNat_lt

theorem push_eq (codepoint byte : ℕ) : push codepoint byte = codepoint * 64 + byte % 64 := by
  have hlow : byte &&& 0x3F = byte % 64 := Nat.and_two_pow_sub_one_eq_mod _ 6
  rw [push, hlow, ← Nat.shiftLeft_add_eq_or_of_lt (by omega), Nat.shiftLeft_eq]

/-- The code point of some first bits and the continuation bytes after them. -/
def joined (t : Bytes) (bits : ℕ) : ℕ := t.foldl (fun c b => push c b.toNat) bits

theorem decides_assemble (hs : value.drop (index + offset) = s) (h : count ≤ s.length) :
    Decides (Tails (s.take count)) (joined (s.take count) codepoint)
      (assemble value index count offset codepoint) := by
  induction count generalizing offset codepoint s with
  | zero => exact decides_ok trivial
  | succ count ih =>
      cases s with
      | nil => cases h
      | cons b s =>
          rw [assemble, byteAt_eq hs, ok_bind, take_succ_cons, Tails]
          refine (decides_failIf ((tail_iff b).trans not_not.symm)).bind fun hb => ?_
          refine ih ?_ (Nat.le_of_succ_le_succ h)
          rw [← add_assoc, ← drop_drop, hs, drop_one, tail_cons]

theorem decides_checkTails (hs : value.drop (index + offset) = s) (h : count ≤ s.length) :
    Decides (Tails (s.take count)) () (checkTails value index count offset) := by
  induction count generalizing offset s with
  | zero => exact decides_ok trivial
  | succ count ih =>
      cases s with
      | nil => cases h
      | cons b s =>
          rw [checkTails, byteAt_eq hs, ok_bind, take_succ_cons, Tails]
          refine (decides_failIf (by unfold In; omega)).bind fun hb => ih ?_ ?_
          · rw [← add_assoc, ← drop_drop, hs, drop_one, tail_cons]
          · exact Nat.le_of_succ_le_succ h

/-- The character at an index is there when its bytes are, and they are a character. -/
theorem reads_of {sequence : Bytes → ℕ → Except Stop ℕ}
    (h : ∀ value index a s count, value.drop index = a :: s → lengthOf a = count + 1 →
      Decides (count ≤ s.length ∧ Character (a :: s.take count)) (count + 1)
        (sequence value index)) : Reads sequence := by
  intro value index a s hs
  obtain ⟨count, hcnt⟩ := lengthOf_eq a
  rw [Present, hs, hcnt, take_succ_cons]
  refine (h value index a s count hs hcnt).congr ⟨fun hc => ⟨?_, hc⟩, And.right⟩
  have hlen := hc.length_eq
  rw [length_cons, length_take] at hlen
  omega

theorem decides_ascii (h : a.toNat < 0x80) (hcnt : lengthOf a = count + 1) :
    Decides (count ≤ s.length ∧ Character (a :: s.take count)) (count + 1) (.ok 1) := by
  obtain rfl : count = 0 := by
    rw [lengthOf, if_pos h] at hcnt
    omega
  refine decides_ok ⟨Nat.zero_le _, ?_⟩
  simp only [take_zero, Character, In]
  omega

theorem not_character (h : 0x80 ≤ a.toNat ∧ a.toNat < 0xC2 ∨ 0xF4 < a.toNat) :
    ¬ Character (a :: s) := by
  intro hc
  rcases s with _ | ⟨b, _ | ⟨c, _ | ⟨d, _ | ⟨e, s⟩⟩⟩⟩ <;>
    simp only [Character, Starts3, Starts4, In] at hc <;> omega

theorem drop_succ (hs : value.drop index = a :: s) : value.drop (index + 1) = s := by
  rw [← drop_drop, hs, drop_one, tail_cons]

theorem length_drop_succ (hs : value.drop index = a :: s) :
    value.length = index + (s.length + 1) := by
  have hlen := congrArg length hs
  rw [length_drop, length_cons] at hlen
  omega

/-- What a table says of a leading byte: it begins no character, or how many continuation bytes
follow and which range the first of them has. -/
def LeadOf (a : UInt8) : Option (ℕ × ℕ × ℕ) → Prop
  | none => ∀ s, ¬ Character (a :: s)
  | some (count, minimum, maximum) => ∃ later, count = later + 1 ∧ lengthOf a = later + 2 ∧
      ∀ b t, t.length = later → (Character (a :: b :: t) ↔ In minimum maximum b ∧ Tails t)

theorem reads_range {lead : ℕ → Option (ℕ × ℕ × ℕ)}
    (h : ∀ a : UInt8, 0x80 ≤ a.toNat → LeadOf a (lead a.toNat)) : Reads (rangeSequence lead) := by
  refine reads_of fun value index a s count hs hcnt => ?_
  have hlen := length_drop_succ hs
  have hnext := drop_succ hs
  rw [rangeSequence, byteAt_eq hs, ok_bind]
  split_ifs with hascii
  · exact decides_ascii (by omega) hcnt
  · have hlead := h a (by omega)
    cases hent : lead a.toNat with
    | none =>
        rw [hent] at hlead
        exact .inr ⟨fun hc => hlead _ hc.2, rfl⟩
    | some entry =>
        rw [hent] at hlead
        obtain ⟨later, hlater, hlen', hiff⟩ := hlead
        obtain rfl : count = later + 1 := by omega
        rw [orFail_some_bind]
        refine (decides_failIf (by omega)).bind fun hle => ?_
        cases s with
        | nil => cases hle
        | cons b t =>
            have hle := Nat.le_of_succ_le_succ hle
            have hrest : value.drop (index + 2) = t := drop_succ hnext
            rw [byteAt_eq hnext, ok_bind, take_succ_cons, hiff _ _ (length_take_of_le hle), hlater]
            refine (decides_failIf (by unfold In; omega)).bind fun _ => ?_
            exact (decides_checkTails hrest hle).returns _

theorem reads_selector : Reads selectorSequence := by
  refine reads_range fun a ha => ?_
  have h256 := a.toNat_lt
  split
  · refine ⟨0, rfl, by unfold lengthOf; split_ifs <;> omega, fun b t ht => ?_⟩
    obtain rfl := length_eq_zero_iff.mp ht
    simp only [Character, In, Tails, and_true]
    omega
  split
  · refine ⟨1, rfl, by unfold lengthOf; split_ifs <;> omega, fun b t ht => ?_⟩
    obtain ⟨c, rfl⟩ := length_eq_one_iff.mp ht
    simp only [Character, Starts3, In, Tails, and_true]
    split_ifs <;> omega
  split
  · refine ⟨2, rfl, by unfold lengthOf; split_ifs <;> omega, fun b t ht => ?_⟩
    obtain ⟨c, d, rfl⟩ := length_eq_two.mp ht
    simp only [Character, Starts4, In, Tails, and_true]
    split_ifs <;> omega
  · exact fun s => not_character (by omega)

theorem api_eq : apiSequence = selectorSequence := by
  unfold apiSequence selectorSequence
  congr 1
  funext lead
  split_ifs <;> first | rfl | omega

/-- The code points that both validators refuse. -/
def Refused (minimum codepoint : ℕ) : Prop :=
  codepoint < minimum ∨ 0x10FFFF < codepoint ∨ (0xD800 ≤ codepoint ∧ codepoint ≤ 0xDFFF)

theorem decides_assembled {bits minimum length : ℕ} (hs : value.drop index = a :: s)
    (hlen : length = count + 1) (h : ∀ t, t.length = count →
      (Character (a :: t) ↔ Tails t ∧ ¬ Refused minimum (joined t bits))) :
    Decides (count ≤ s.length ∧ Character (a :: s.take count)) (count + 1) (do
      failIf (value.length - index < length) .refused
      let codepoint ← assemble value index (length - 1) 1 bits
      failIf (codepoint < minimum ∨ 0x10FFFF < codepoint ∨
        (0xD800 ≤ codepoint ∧ codepoint ≤ 0xDFFF)) .refused
      .ok length) := by
  have hall := length_drop_succ hs
  subst hlen
  refine (decides_failIf (by omega)).bind fun hle => ?_
  rw [h _ (length_take_of_le hle)]
  refine (decides_assemble (drop_succ hs) hle).bind fun _ => ?_
  exact (decides_failIf (by rw [Refused])).returns _

theorem artifactLead_eq : ∀ n < 256, artifactLead n =
    if 0xC0 ≤ n ∧ n ≤ 0xDF then some (2, n - 0xC0, 0x80)
    else if 0xE0 ≤ n ∧ n ≤ 0xEF then some (3, n - 0xE0, 0x800)
    else if 0xF0 ≤ n ∧ n ≤ 0xF7 then some (4, n - 0xF0, 0x10000) else none := by
  decide +kernel

theorem reads_artifact : Reads artifactSequence := by
  refine reads_of fun value index a s count hs hcnt => ?_
  have h256 := a.toNat_lt
  rw [artifactSequence, byteAt_eq hs, ok_bind, artifactLead_eq _ h256]
  split_ifs with hascii h2 h3 h4
  · exact decides_ascii hascii hcnt
  · obtain rfl : count = 1 := by unfold lengthOf at hcnt; split_ifs at hcnt <;> omega
    refine decides_assembled hs rfl fun t ht => ?_
    obtain ⟨b, rfl⟩ := length_eq_one_iff.mp ht
    simp only [Character, In, Tails, and_true, joined, foldl, push_eq, Refused]
    omega
  · obtain rfl : count = 2 := by unfold lengthOf at hcnt; split_ifs at hcnt <;> omega
    refine decides_assembled hs rfl fun t ht => ?_
    obtain ⟨b, c, rfl⟩ := length_eq_two.mp ht
    simp only [Character, Starts3, In, Tails, and_true, joined, foldl, push_eq, Refused]
    omega
  · obtain rfl : count = 3 := by unfold lengthOf at hcnt; split_ifs at hcnt <;> omega
    refine decides_assembled hs rfl fun t ht => ?_
    obtain ⟨b, c, d, rfl⟩ := length_eq_three.mp ht
    simp only [Character, Starts4, In, Tails, and_true, joined, foldl, push_eq, Refused]
    omega
  · exact .inr ⟨fun hc => not_character (by omega) hc.2, rfl⟩

theorem linux_eq : linuxSequence = artifactSequence := by
  funext value index
  unfold linuxSequence artifactSequence linuxLead artifactLead
  cases hbyte : byteAt value index with
  | error stop => rfl
  | ok first =>
      have hlt : index < value.length := by
        by_contra hge
        rw [byteAt, getElem?_eq_none (not_lt.mp hge)] at hbyte
        cases hbyte
      have hascii : (first ≤ 0x7F) = (first < 0x80) := propext (by omega)
      have hshort : ∀ n, (value.length ≤ index + n) = (value.length - index < n + 1) :=
        fun n => propext (by omega)
      simp only [ok_bind, hascii, hshort]
      split_ifs <;> try rfl
      all_goals simp only [orFail_some_bind, Nat.reduceAdd, Nat.reduceSub, Nat.reduceEqDiff,
        true_and, false_and, false_or]

/-- The four validators give one answer for every string, without a read outside it: whether the
string is well formed. -/
theorem valid_utf8_agree (value : Bytes) : ∃ answer, (answer = true ↔ WellFormed value) ∧
    ∀ sequence ∈ [artifactSequence, selectorSequence, linuxSequence, apiSequence],
      validUtf8 sequence value = some answer := by
  have hfuel : value.length ≤ 0 + value.length := Nat.le_add_left _ _
  obtain ⟨answer, hans, hiff⟩ := scan_eq reads_artifact hfuel
  obtain ⟨answer', hans', hiff'⟩ := scan_eq reads_selector hfuel
  obtain rfl : answer' = answer := Bool.eq_iff_iff.mpr (hiff'.trans hiff.symm)
  refine ⟨answer', hiff, ?_⟩
  rw [linux_eq, api_eq]
  simp [validUtf8, hans, hans']

end

end KairosBoot.Utf8
