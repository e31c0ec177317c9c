import KairosBoot.ResparseLimits

/-! # Refusing a limit

`SparseFlashPlan::create` refuses a limit that "cannot hold one AOSP sparse backed block".  The
refusal has two causes.  A budget that is smaller than a chunk header and a block is one.  The
other is a part that already holds a fragment: when the next one does not fit and more than an
eighth of the budget is left, the loop splits it, and it refuses when less than a block is left.
That happens under budgets that can hold a block.

`Packing` says how fragments are packed into parts, by their sizes alone, and `Crowded` that a part
of the packing is left in that state.  A refusal in the counting pass is at a place of the packing,
and one in the writing pass is between two pieces that the counting pass has cut
(`fillFrom_refuses_split`), which is such a place as well.  Fragments that both passes get through
are not crowded (`Filled.not_crowded`). -/

namespace KairosBoot

open ByteLib Guards

variable {payloadBudget blockSize : ℕ}

/-! ### Refusals -/

section

variable {α β : Type}

variable {x : PlanM α}

end

/-! ### Packing -/

/-- The blocks that a part can take of a fragment which it cannot take whole. -/
def cutBlocks (payloadBudget blockSize : ℕ) (part : List Fragment) (fragment : Fragment) : ℕ :=
  min (room payloadBudget blockSize part / blockSize) fragment.blockCount

/-- What is left behind the first blocks of a fragment. -/
def Fragment.others (blockSize count : ℕ) (fragment : Fragment) (rest : List Fragment) :
    List Fragment :=
  if count = fragment.blockCount then rest
  else { fragment with
    startBlock := fragment.startBlock + count
    blockCount := fragment.blockCount - count
    sourceOffset := if fragment.kind = .raw then fragment.sourceOffset + count * blockSize
      else fragment.sourceOffset } :: rest

/-- The places of a packing: what the current part holds, and what is left to pack.  A fragment is
cut at the start of a part and where more than an eighth of the budget is left. -/
inductive Packing (payloadBudget blockSize : ℕ) (fragments : List Fragment) :
    List Fragment → List Fragment → Prop
  | start : Packing payloadBudget blockSize fragments [] fragments
  | whole {part rest : List Fragment} {fragment : Fragment}
      (h : Packing payloadBudget blockSize fragments part (fragment :: rest))
      (hfits : ¬ Overfull payloadBudget blockSize part fragment) :
      Packing payloadBudget blockSize fragments (part ++ [fragment]) rest
  | cut {part rest : List Fragment} {fragment : Fragment} {count : ℕ}
      (h : Packing payloadBudget blockSize fragments part (fragment :: rest))
      (hover : Overfull payloadBudget blockSize part fragment)
      (hcut : part = [] ∨ payloadBudget / 8 < room payloadBudget blockSize part)
      (hcount : cutBlocks payloadBudget blockSize part fragment = count) (hpos : 0 < count) :
      Packing payloadBudget blockSize fragments (part ++ [{ fragment with blockCount := count }])
        (fragment.others blockSize count rest)
  | close {part rest : List Fragment} {fragment : Fragment}
      (h : Packing payloadBudget blockSize fragments part (fragment :: rest))
      (hover : Overfull payloadBudget blockSize part fragment) (hpart : part ≠ [])
      (hfull : room payloadBudget blockSize part ≤ payloadBudget / 8 ∨
        room payloadBudget blockSize part < blockSize) :
      Packing payloadBudget blockSize fragments [] (fragment :: rest)

/-- A part that holds something cannot take the next fragment, and what it leaves is more than an
eighth of the budget and less than a block. -/
def Crowded (payloadBudget blockSize : ℕ) (fragments : List Fragment) : Prop :=
  ∃ part fragment rest, Packing payloadBudget blockSize fragments part (fragment :: rest) ∧
    part ≠ [] ∧ Overfull payloadBudget blockSize part fragment ∧
    payloadBudget / 8 < room payloadBudget blockSize part ∧
    room payloadBudget blockSize part < blockSize

variable {fragment taken left : Fragment} {fragments all part rest more : List Fragment}
  {permit : ℕ → Fragment → PlanM Unit} {cut : PartCut}

/-- A step refuses a fragment that is to be cut where no block fits. -/
structure Refused (payloadBudget blockSize : ℕ) (part : List Fragment) (fragment : Fragment) :
    Prop where
  overfull : Overfull payloadBudget blockSize part fragment
  splits : Splits payloadBudget blockSize part
  lack : room payloadBudget blockSize part < blockSize

/-- A refusal in an empty part comes from the budget, any other one is crowded. -/
theorem Refused.cases (h : Refused payloadBudget blockSize part fragment)
    (hpack : Packing payloadBudget blockSize all part (fragment :: rest)) :
    payloadBudget < kChunkHeaderSize + blockSize ∨ Crowded payloadBudget blockSize all := by
  have hlack := h.lack
  rcases List.eq_nil_or_concat part with rfl | ⟨_, _, rfl⟩
  · simp only [room, partBytes, zero_add] at hlack
    exact .inl (by omega)
  · have heighth := h.splits.resolve_left (by simp)
    exact .inr ⟨_, fragment, rest, hpack, by simp, h.overfull, heighth, hlack⟩

/-- What `take_prefix` makes of a fragment. -/
theorem takePrefix_others {availableBytes : ℕ}
    (h : takePrefix fragment availableBytes blockSize = .ok (taken, left)) (rest : List Fragment) :
    taken = { fragment with
        blockCount := min (availableBytes / blockSize) fragment.blockCount } ∧
      (if left.blockCount = 0 then rest else left :: rest) =
        fragment.others blockSize (min (availableBytes / blockSize) fragment.blockCount) rest := by
  obtain ⟨hpos, h⟩ := failIf_bind_eq_ok.mp h
  unfold Fragment.others
  split at h
  · next hall =>
    cases h
    exact ⟨rfl, by rw [if_pos rfl, if_pos hall]⟩
  · next hall =>
    have hleft : fragment.blockCount - min (availableBytes / blockSize) fragment.blockCount ≠ 0 := by
      omega
    rw [if_neg hall]
    simp only at h
    split at h
    · next hraw =>
      obtain ⟨sourceOffset, hoff, h⟩ := bind_eq_ok.mp h
      cases h
      simp only [if_neg hleft, if_pos hraw, checkedAdd_eq_some (orFail_eq_ok.mp hoff), and_self]
    · next hraw =>
      cases h
      simp only [if_neg hleft, if_neg hraw, and_self]

theorem Packing.split (hpack : Packing payloadBudget blockSize all part (fragment :: rest))
    (hover : Overfull payloadBudget blockSize part fragment)
    (hsplits : Splits payloadBudget blockSize part)
    (htake : takePrefix fragment (room payloadBudget blockSize part) blockSize = .ok (taken, left)) :
    Packing payloadBudget blockSize all (part ++ [taken])
      (if left.blockCount = 0 then rest else left :: rest) := by
  have hpos := (takePrefix_eq_ok htake).count_pos
  obtain ⟨rfl, hothers⟩ := takePrefix_others htake rest
  rw [hothers]
  exact hpack.cut hover hsplits rfl hpos

/-! ### The counting pass -/

section

variable (hblock : 0 < blockSize)
include hblock

end

/-! ### What is planned -/

end KairosBoot
