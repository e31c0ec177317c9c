import KairosBoot.ResparsePasses

/-! # Parts fit, and the two passes agree

How many bytes a part takes (`partBytes`) and why it keeps to the limit: the inner loop charges
every chunk and every gap but the gap before a fragment that it splits, and the reserve of 56
bytes is what the header, that gap, the final gap and a fill word add (`fillPart_bytes`).

The writing pass works on the list that the counting pass has already split.  Where the counting
pass closed a part, the writing pass may still find room, but less than a block, so that it closes
the part as well or fails (`fillFrom_agree`).  By induction over the parts both passes count the
same number of them, and a part is closed only if it has little room (`Segments.filled`). -/

namespace KairosBoot

open ByteLib Guards

variable {payloadBudget blockSize : ℕ}

/-! ### The bytes of a part -/

/-- The payload of the chunk of a fragment. -/
def Fragment.payloadBytes (blockSize : ℕ) (fragment : Fragment) : ℕ :=
  if fragment.kind = .fill then kFillPayloadBytes else fragment.blockCount * blockSize

/-- The bytes that a fragment adds to a part which ends at `lastBlock`. -/
def chunkBytes (blockSize lastBlock : ℕ) (fragment : Fragment) : ℕ :=
  (if lastBlock < fragment.startBlock then kChunkHeaderSize else 0) + kChunkHeaderSize +
    fragment.payloadBytes blockSize

/-- The bytes of the chunks of a part up to its last fragment. -/
def partBytes (blockSize : ℕ) : ℕ → List Fragment → ℕ
  | _, [] => 0
  | lastBlock, fragment :: rest =>
      chunkBytes blockSize lastBlock fragment + partBytes blockSize fragment.endBlock rest

/-- The block after the last fragment of a part. -/
def endOf (start : ℕ) (part : List Fragment) : ℕ := (part.getLast?.map Fragment.endBlock).getD start

theorem endOf_cons (start : ℕ) (fragment : Fragment) (rest : List Fragment) :
    endOf start (fragment :: rest) = endOf fragment.endBlock rest := by
  cases rest with
  | nil => rfl
  | cons next rest =>
      simp [endOf, List.getLast?_eq_some_getLast (List.cons_ne_nil next rest)]

@[simp] theorem endOf_concat (start : ℕ) (part : List Fragment) (fragment : Fragment) :
    endOf start (part ++ [fragment]) = fragment.endBlock := by
  simp [endOf]

theorem partBytes_concat (start : ℕ) (part : List Fragment) (fragment : Fragment) :
    partBytes blockSize start (part ++ [fragment])
      = partBytes blockSize start part + chunkBytes blockSize (endOf start part) fragment := by
  induction part generalizing start with
  | nil => simp [partBytes, endOf]
  | cons first rest ih => rw [List.cons_append, partBytes, partBytes, ih, endOf_cons, add_assoc]

variable {fragment taken left : Fragment} {fragments : List Fragment}
  {permit : ℕ → Fragment → PlanM Unit} {lastBlock fileLen availableBytes : ℕ}
  {cut : PartCut}

theorem counterBytesForFragment_eq_ok {count : ℕ}
    (h : counterBytesForFragment fragment lastBlock blockSize = .ok count) :
    count = chunkBytes blockSize lastBlock fragment := by
  obtain ⟨encoded, henc, h⟩ := bind_eq_ok.mp h
  have henc : encoded = kChunkHeaderSize + fragment.payloadBytes blockSize := by
    unfold fragmentEncodedBytes at henc
    unfold Fragment.payloadBytes
    split at henc
    · next hfill => rw [if_pos hfill, ← Except.ok.inj henc]
    · next hfill =>
      obtain ⟨data, hdata, henc⟩ := bind_eq_ok.mp henc
      rw [if_neg hfill, checkedAdd_eq_some (orFail_eq_ok.mp henc),
        (checkedMultiply_eq_some (orFail_eq_ok.mp hdata)).1]
  unfold chunkBytes
  split at h
  · next hgap =>
    rw [checkedAdd_eq_some (orFail_eq_ok.mp h), henc, if_pos hgap]
    omega
  · next hgap => rw [← Except.ok.inj h, henc, if_neg hgap, zero_add]

/-! ### One step of the inner loop -/

/-- What the budget leaves in a part for the blocks of another chunk. -/
def room (payloadBudget blockSize : ℕ) (part : List Fragment) : ℕ :=
  payloadBudget - (partBytes blockSize 0 part + kChunkHeaderSize)

/-- The part cannot take the whole fragment. -/
def Overfull (payloadBudget blockSize : ℕ) (part : List Fragment) (fragment : Fragment) : Prop :=
  payloadBudget < partBytes blockSize 0 (part ++ [fragment])

instance (part : List Fragment) (fragment : Fragment) :
    Decidable (Overfull payloadBudget blockSize part fragment) := inferInstanceAs (Decidable (_ < _))

/-- The inner loop splits a fragment that does not fit at the start of a part, and where more than
an eighth of the budget is left. -/
def Splits (payloadBudget blockSize : ℕ) (part : List Fragment) : Prop :=
  part = [] ∨ payloadBudget / 8 < room payloadBudget blockSize part

theorem splits_iff {part : List Fragment} : Splits payloadBudget blockSize part ↔
    (!part.isEmpty) = false ∨ (partBytes blockSize 0 part + kChunkHeaderSize ≤ payloadBudget ∧
      payloadBudget / 8 < payloadBudget - (partBytes blockSize 0 part + kChunkHeaderSize)) := by
  rw [Splits, room, Bool.not_eq_false', List.isEmpty_iff, and_iff_right_of_imp (by omega)]

variable {part : List Fragment}

variable (payloadBudget blockSize fragment part) in
/-- Everything a step that succeeds can be. -/
inductive StepOf : PartStep → Prop where
  | fits (h : ¬ Overfull payloadBudget blockSize part fragment) :
      StepOf (.fits (partBytes blockSize 0 (part ++ [fragment])))
  | split (taken left : Fragment) (h : Overfull payloadBudget blockSize part fragment)
      (hsplits : Splits payloadBudget blockSize part)
      (htake : takePrefix fragment (room payloadBudget blockSize part) blockSize
        = .ok (taken, left)) : StepOf (.split taken left)
  | stop (h : Overfull payloadBudget blockSize part fragment)
      (hsplits : ¬ Splits payloadBudget blockSize part) : StepOf .stop

theorem remaining_eq : (if partBytes blockSize 0 part + kChunkHeaderSize ≤ payloadBudget
    then payloadBudget - (partBytes blockSize 0 part + kChunkHeaderSize) else 0)
      = room payloadBudget blockSize part := by
  unfold room
  split <;> omega

theorem partStep_eq_ok {step : PartStep} (h : partStep payloadBudget blockSize (!part.isEmpty)
      (partBytes blockSize 0 part) (endOf 0 part) fragment = .ok step) :
    StepOf payloadBudget blockSize fragment part step := by
  obtain ⟨count, hcnt, h⟩ := bind_eq_ok.mp h
  obtain ⟨candidate, hcand, h⟩ := bind_eq_ok.mp h
  obtain rfl := counterBytesForFragment_eq_ok hcnt
  obtain rfl := checkedAdd_eq_some (orFail_eq_ok.mp hcand)
  rw [← partBytes_concat] at h
  split at h
  · next hfits =>
    cases h
    exact .fits (Nat.not_lt.mpr hfits)
  · next hfits =>
    obtain ⟨accounting, hacc, h⟩ := bind_eq_ok.mp h
    obtain rfl := checkedAdd_eq_some (orFail_eq_ok.mp hacc)
    simp only [remaining_eq] at h
    split at h
    · next hsplits =>
      obtain ⟨-, h⟩ := failIf_bind_eq_ok.mp h
      obtain ⟨⟨taken, left⟩, htake, h⟩ := bind_eq_ok.mp h
      cases h
      exact .split taken left (Nat.not_le.mp hfits) (splits_iff.mpr hsplits) htake
    · next hsplits =>
      cases h
      exact .stop (Nat.not_le.mp hfits) (mt splits_iff.mp hsplits)

/-- The inner loop at a part that holds fragments already. -/
def fillFrom (permit : ℕ → Fragment → PlanM Unit) (payloadBudget blockSize : ℕ)
    (fragments part : List Fragment) : PlanM PartCut :=
  fillPart permit payloadBudget blockSize fragments part (partBytes blockSize 0 part) (endOf 0 part)

variable (payloadBudget blockSize fragment permit part) in
/-- How the inner loop goes on at a fragment. -/
inductive Fills (rest : List Fragment) : PartCut → Prop
  | fits {cut : PartCut} (h : ¬ Overfull payloadBudget blockSize part fragment)
      (hok : fillFrom permit payloadBudget blockSize rest (part ++ [fragment]) = .ok cut) :
      Fills rest cut
  | split (taken left : Fragment) (h : Overfull payloadBudget blockSize part fragment)
      (hsplits : Splits payloadBudget blockSize part)
      (htake : takePrefix fragment (room payloadBudget blockSize part) blockSize
        = .ok (taken, left)) :
      Fills rest ⟨part ++ [taken], if left.blockCount = 0 then rest else left :: rest, true,
        decide (left.blockCount = 0) && rest.isEmpty, fragment.outputOffset blockSize⟩
  | stop (h : Overfull payloadBudget blockSize part fragment)
      (hsplits : ¬ Splits payloadBudget blockSize part) :
      Fills rest ⟨part, fragment :: rest, true, false, fragment.outputOffset blockSize⟩

theorem fillFrom_cons {rest : List Fragment}
    (hok : fillFrom permit payloadBudget blockSize (fragment :: rest) part = .ok cut) :
    Fills payloadBudget blockSize fragment permit part rest cut := by
  obtain ⟨step, hstep, hok⟩ := bind_eq_ok.mp hok
  cases partStep_eq_ok hstep with
  | fits hfits =>
      obtain ⟨-, -, hok⟩ := bind_eq_ok.mp hok
      refine .fits hfits ?_
      rwa [fillFrom, endOf_concat]
  | split taken left hover hsplits htake =>
      obtain ⟨-, -, hok⟩ := bind_eq_ok.mp hok
      cases hok
      exact .split taken left hover hsplits htake
  | stop hover hsplits =>
      obtain ⟨-, hok⟩ := failIf_bind_eq_ok.mp hok
      cases hok
      exact .stop hover hsplits

/-- The two halves of a fragment. -/
structure SplitOf (blockSize availableBytes : ℕ) (fragment taken left : Fragment) : Prop where
  start_eq : taken.startBlock = fragment.startBlock
  kind_eq : taken.kind = fragment.kind
  count_eq : taken.blockCount = min (availableBytes / blockSize) fragment.blockCount
  count_pos : 0 < taken.blockCount
  left_count : left.blockCount = fragment.blockCount - taken.blockCount
  left_start : left.blockCount ≠ 0 → left.startBlock = taken.endBlock
  left_kind : left.kind = fragment.kind

theorem takePrefix_eq_ok (h : takePrefix fragment availableBytes blockSize = .ok (taken, left)) :
    SplitOf blockSize availableBytes fragment taken left := by
  obtain ⟨hpos, h⟩ := failIf_bind_eq_ok.mp h
  split at h
  · next hall =>
    cases h
    exact ⟨rfl, rfl, rfl, Nat.pos_of_ne_zero hpos, by simp only; omega, fun h => absurd rfl h, rfl⟩
  · simp only at h
    split at h
    · obtain ⟨sourceOffset, -, h⟩ := bind_eq_ok.mp h
      cases h
      exact ⟨rfl, rfl, rfl, Nat.pos_of_ne_zero hpos, rfl, fun _ => rfl, rfl⟩
    · cases h
      exact ⟨rfl, rfl, rfl, Nat.pos_of_ne_zero hpos, rfl, fun _ => rfl, rfl⟩

theorem SplitOf.bytes_le (h : SplitOf blockSize availableBytes fragment taken left) :
    taken.blockCount * blockSize ≤ availableBytes :=
  (Nat.mul_le_mul_right _ (h.count_eq.trans_le (min_le_left _ _))).trans (Nat.div_mul_le_self _ _)

theorem SplitOf.chunkBytes_le (h : SplitOf blockSize availableBytes fragment taken left)
    (lastBlock : ℕ) :
    chunkBytes blockSize lastBlock taken
      ≤ 2 * kChunkHeaderSize + kFillPayloadBytes + availableBytes := by
  have hbytes := h.bytes_le
  unfold chunkBytes Fragment.payloadBytes
  split <;> split <;> omega

theorem SplitOf.block_le (h : SplitOf blockSize availableBytes fragment taken left) :
    0 < blockSize ∧ blockSize ≤ availableBytes := by
  have hcnt := h.count_eq
  have hpos := h.count_pos
  exact Nat.div_pos_iff.mp (by omega)

/-! ### A part keeps to the budget -/

theorem fillPart_bytes (hbud : partBytes blockSize 0 part ≤ payloadBudget)
    (hok : fillFrom permit payloadBudget blockSize fragments part = .ok cut) :
    partBytes blockSize 0 cut.part ≤ payloadBudget + kChunkHeaderSize + kFillPayloadBytes := by
  induction fragments generalizing part with
  | nil =>
      cases hok
      simp only
      omega
  | cons fragment rest ih =>
      cases fillFrom_cons hok with
      | fits hfits hok => exact ih (Nat.not_lt.mp hfits) hok
      | split taken left hover hsplits htake =>
          have hsplit := takePrefix_eq_ok htake
          have hbytes := hsplit.chunkBytes_le (endOf 0 part)
          have hblock := hsplit.block_le
          unfold room at hbytes hblock
          simp only [partBytes_concat]
          omega
      | stop hover hsplits =>
          simp only
          omega

/-! ### The writing pass repeats the counting pass -/

/-- The first piece that the counting pass cuts from a fragment at the start of a part. -/
structure FirstPiece (payloadBudget blockSize : ℕ) (piece fragment : Fragment) : Prop where
  start_eq : piece.startBlock = fragment.startBlock
  kind_eq : piece.kind = fragment.kind
  count_pos : 0 < piece.blockCount
  count : piece.blockCount = fragment.blockCount ∨
    (kChunkHeaderSize ≤ payloadBudget ∧
      piece.blockCount = (payloadBudget - kChunkHeaderSize) / blockSize)

/-- The pieces that stand in the place of the fragments left over. -/
def Fronts (payloadBudget blockSize : ℕ) : List Fragment → List Fragment → Prop
  | [], [] => True
  | piece :: _, fragment :: _ => FirstPiece payloadBudget blockSize piece fragment
  | _, _ => False

theorem Fronts.nil_iff {pieces : List Fragment}
    (h : Fronts payloadBudget blockSize pieces fragments) : pieces = [] ↔ fragments = [] := by
  cases pieces with
  | nil => cases fragments with
    | nil => simp
    | cons fragment rest => exact h.elim
  | cons piece more => cases fragments with
    | nil => exact h.elim
    | cons fragment rest => simp

theorem Fronts.of_cons {pieces rest : List Fragment}
    (h : Fronts payloadBudget blockSize pieces (fragment :: rest)) :
    ∃ piece more, pieces = piece :: more ∧ FirstPiece payloadBudget blockSize piece fragment := by
  cases pieces with
  | nil => exact h.elim
  | cons piece more => exact ⟨piece, more, rfl, h⟩

theorem chunkBytes_ge (blockSize lastBlock : ℕ) (fragment : Fragment) :
    kChunkHeaderSize ≤ chunkBytes blockSize lastBlock fragment := by
  unfold chunkBytes
  omega

theorem chunkBytes_raw (blockSize lastBlock : ℕ) (h : fragment.kind ≠ .fill) :
    kChunkHeaderSize + fragment.blockCount * blockSize
      ≤ chunkBytes blockSize lastBlock fragment := by
  unfold chunkBytes Fragment.payloadBytes
  rw [if_neg h]
  omega

theorem chunkBytes_congr {a b : Fragment} (lastBlock : ℕ) (hstart : a.startBlock = b.startBlock)
    (hkind : a.kind = b.kind) (hcnt : a.kind ≠ .fill → a.blockCount = b.blockCount) :
    chunkBytes blockSize lastBlock a = chunkBytes blockSize lastBlock b := by
  unfold chunkBytes Fragment.payloadBytes
  rw [hstart, hkind]
  by_cases hfill : b.kind = .fill
  · simp only [hfill, if_true]
  · rw [if_neg hfill, if_neg hfill, hcnt (by rwa [hkind])]

theorem partBytes_ge (h : part ≠ []) : kChunkHeaderSize ≤ partBytes blockSize 0 part := by
  obtain ⟨fragment, rest, rfl⟩ := List.exists_cons_of_ne_nil h
  exact (chunkBytes_ge blockSize 0 fragment).trans (Nat.le_add_right _ _)

/-- A piece cut at the start of a part does not fit behind other fragments where the part was
closed before the whole fragment. -/
theorem FirstPiece.overfull {piece : Fragment}
    (h : FirstPiece payloadBudget blockSize piece fragment)
    (hover : Overfull payloadBudget blockSize part fragment)
    (hsplits : ¬ Splits payloadBudget blockSize part) :
    Overfull payloadBudget blockSize part piece := by
  have hlen : kChunkHeaderSize ≤ partBytes blockSize 0 part := partBytes_ge (not_or.mp hsplits).1
  have hroom := (not_or.mp hsplits).2
  rw [Overfull, partBytes_concat] at hover ⊢
  by_cases hfill : piece.kind = .fill
  · rwa [chunkBytes_congr _ h.start_eq h.kind_eq fun hne => absurd hfill hne]
  rcases h.count with hcnt | ⟨-, hcnt⟩
  · rwa [chunkBytes_congr _ h.start_eq h.kind_eq fun _ => hcnt]
  · -- the piece is more than half of an empty part, and less than an eighth is left
    have hpos : 0 < blockSize := by
      by_contra hzero
      have := h.count_pos
      rw [hcnt, Nat.eq_zero_of_not_pos hzero, Nat.div_zero] at this
      omega
    have hmore := Nat.lt_mul_div_succ (payloadBudget - kChunkHeaderSize) hpos
    rw [← hcnt, Nat.mul_succ, mul_comm] at hmore
    have hone : blockSize ≤ piece.blockCount * blockSize := Nat.le_mul_of_pos_left _ h.count_pos
    have hbytes := chunkBytes_raw blockSize (endOf 0 part) hfill
    unfold room at hroom
    unfold kChunkHeaderSize at *
    omega

section

variable (h : SplitOf blockSize (room payloadBudget blockSize part) fragment taken left)
  (hover : Overfull payloadBudget blockSize part fragment)
include h hover

/-- A fragment of which a piece fits is raw, and less than a block is left behind the piece. -/
theorem SplitOf.lack (htaken : ¬ Overfull payloadBudget blockSize part taken) :
    left.kind ≠ .fill ∧ left.blockCount ≠ 0 ∧
      room payloadBudget blockSize (part ++ [taken]) < blockSize := by
  rw [Overfull, partBytes_concat] at hover htaken
  have hraw : taken.kind ≠ .fill := by
    intro hfill
    rw [chunkBytes_congr _ h.start_eq h.kind_eq fun hne => absurd hfill hne] at htaken
    omega
  have hcnt : taken.blockCount ≠ fragment.blockCount := by
    intro hcnt
    rw [chunkBytes_congr _ h.start_eq h.kind_eq fun _ => hcnt] at htaken
    omega
  have hmin := h.count_eq
  have hleft := h.left_count
  have htakes : taken.blockCount = room payloadBudget blockSize part / blockSize := by omega
  have hmore := Nat.lt_mul_div_succ (room payloadBudget blockSize part) h.block_le.1
  rw [← htakes, Nat.mul_succ, mul_comm] at hmore
  have hbytes := chunkBytes_raw blockSize (endOf 0 part) hraw
  refine ⟨?_, by omega, ?_⟩
  · rw [h.left_kind, ← h.kind_eq]
    exact hraw
  · unfold room at hmore ⊢
    rw [partBytes_concat]
    omega

/-- Behind a piece of a fragment, the next piece of the same fragment does not fit. -/
theorem SplitOf.overfull {piece : Fragment} (hkind : piece.kind = left.kind)
    (hpos : 0 < piece.blockCount) : Overfull payloadBudget blockSize (part ++ [taken]) piece := by
  rw [Overfull, partBytes_concat]
  by_cases htaken : Overfull payloadBudget blockSize part taken
  · rw [Overfull] at htaken
    omega
  · obtain ⟨hraw, -, hlack⟩ := h.lack hover htaken
    have hbytes := chunkBytes_raw blockSize (endOf 0 (part ++ [taken])) (hkind ▸ hraw)
    have hone : blockSize ≤ piece.blockCount * blockSize := Nat.le_mul_of_pos_left _ hpos
    unfold room at hlack
    omega

end

/-- A piece that does not fit, because of the gap before it, is taken whole. -/
theorem takePrefix_taken {taken' left' : Fragment}
    (hsplit : SplitOf blockSize availableBytes fragment taken left)
    (htake : takePrefix taken availableBytes blockSize = .ok (taken', left')) :
    taken' = taken ∧ left'.blockCount = 0 := by
  have hmin := hsplit.count_eq
  have hpos := hsplit.count_pos
  have hall : min (availableBytes / blockSize) taken.blockCount = taken.blockCount := by omega
  rw [takePrefix, failIf_bind_of_not (by omega), if_pos hall] at htake
  obtain ⟨rfl, rfl⟩ := Prod.mk.inj (Except.ok.inj htake)
  refine ⟨?_, rfl⟩
  simp only [hall]

/-- The outcome of a part without its cut offset.  A part that leaves something is full. -/
structure SameCut (payloadBudget blockSize : ℕ) (cut : PartCut) (part rest : List Fragment)
    (trailingEmptyPart : Bool) : Prop where
  part_eq : cut.part = part
  rest_eq : cut.rest = rest
  trailing_eq : cut.trailingEmptyPart = trailingEmptyPart
  room_le : rest ≠ [] → room payloadBudget blockSize part ≤ payloadBudget / 8

/-- The writing pass at the piece with which the counting pass closed a part. -/
theorem fillFrom_agree_split {more rest : List Fragment} {cut' : PartCut}
    (hover : Overfull payloadBudget blockSize part fragment)
    (hsplits : Splits payloadBudget blockSize part)
    (hsplit : SplitOf blockSize (room payloadBudget blockSize part) fragment taken left)
    (hmore : Fronts payloadBudget blockSize more
      (if left.blockCount = 0 then rest else left :: rest))
    (hok : fillFrom (fun _ _ => .ok ()) payloadBudget blockSize (taken :: more) part = .ok cut') :
    SameCut payloadBudget blockSize cut' (part ++ [taken]) more
      (decide (left.blockCount = 0) && rest.isEmpty) := by
  cases fillFrom_cons hok with
  | fits htaken hok =>
      obtain ⟨-, hleft, hlack⟩ := hsplit.lack hover htaken
      rw [if_neg hleft] at hmore
      obtain ⟨piece, more, rfl, hpiece⟩ := hmore.of_cons
      cases fillFrom_cons hok with
      | fits hnext => exact absurd (hsplit.overfull hover hpiece.kind_eq hpiece.count_pos) hnext
      | split taken' left' _ _ htake =>
          exact absurd (takePrefix_eq_ok htake).block_le.2 (Nat.not_le.mpr hlack)
      | stop _ hfull =>
          exact ⟨rfl, rfl, by simp [hleft], fun _ => Nat.not_lt.mp (not_or.mp hfull).2⟩
  | split taken' left' hnext _ htake =>
      obtain ⟨rfl, hzero⟩ := takePrefix_taken hsplit htake
      refine ⟨rfl, if_pos hzero, ?_, fun _ => ?_⟩
      · simp only [hzero, decide_true, Bool.true_and]
        rw [Bool.eq_iff_iff, List.isEmpty_iff, hmore.nil_iff]
        by_cases hleft : left.blockCount = 0
        · simp [hleft]
        · simp [hleft]
      · unfold Overfull at hnext
        unfold room
        omega
  | stop _ hfull => exact absurd hsplits hfull

/-- The writing pass at the fragment before which the counting pass closed a part. -/
theorem fillFrom_agree_stop {more rest : List Fragment} {cut' : PartCut}
    (hover : Overfull payloadBudget blockSize part fragment)
    (hsplits : ¬ Splits payloadBudget blockSize part)
    (hmore : Fronts payloadBudget blockSize more (fragment :: rest))
    (hok : fillFrom (fun _ _ => .ok ()) payloadBudget blockSize more part = .ok cut') :
    SameCut payloadBudget blockSize cut' part more false := by
  obtain ⟨piece, more, rfl, hpiece⟩ := hmore.of_cons
  cases fillFrom_cons hok with
  | fits hnext => exact absurd (hpiece.overfull hover hsplits) hnext
  | split taken left _ hsplits' => exact absurd hsplits' hsplits
  | stop => exact ⟨rfl, rfl, rfl, fun _ => Nat.not_lt.mp (not_or.mp hsplits).2⟩

/-- The writing pass fills a part with the pieces that the counting pass put into it. -/
theorem fillFrom_agree (hok : fillFrom permit payloadBudget blockSize fragments part = .ok cut) :
    ∃ pieces, cut.part = part ++ pieces ∧
      ∀ more, Fronts payloadBudget blockSize more cut.rest → ∀ cut',
        fillFrom (fun _ _ => .ok ()) payloadBudget blockSize (pieces ++ more) part = .ok cut' →
          SameCut payloadBudget blockSize cut' cut.part more cut.trailingEmptyPart := by
  induction fragments generalizing part with
  | nil =>
      cases hok
      refine ⟨[], (List.append_nil part).symm, fun more hmore cut' hok' => ?_⟩
      obtain rfl := hmore.nil_iff.mpr rfl
      cases hok'
      exact ⟨rfl, rfl, rfl, fun h => absurd rfl h⟩
  | cons fragment rest ih =>
      cases fillFrom_cons hok with
      | fits hfits hok =>
          obtain ⟨pieces, hpart, hagree⟩ := ih hok
          refine ⟨fragment :: pieces, by rw [hpart, List.append_assoc]; rfl, ?_⟩
          intro more hmore cut' hok'
          cases fillFrom_cons hok' with
          | fits _ hok' => exact hagree more hmore cut' hok'
          | split _ _ hover => exact absurd hover hfits
          | stop hover => exact absurd hover hfits
      | split taken left hover hsplits htake =>
          exact ⟨[taken], rfl, fun more hmore cut' =>
            fillFrom_agree_split hover hsplits (takePrefix_eq_ok htake) hmore⟩
      | stop hover hsplits =>
          exact ⟨[], (List.append_nil part).symm, fun more hmore cut' =>
            fillFrom_agree_stop hover hsplits hmore⟩

/-- The first fragment of a part that the counting pass fills from its start. -/
theorem fillFrom_front {rest : List Fragment} (hv : fragment.Valid)
    (hok : fillFrom permit payloadBudget blockSize (fragment :: rest) [] = .ok cut)
    (more : List Fragment) :
    Fronts payloadBudget blockSize (cut.part ++ more) (fragment :: rest) := by
  cases fillFrom_cons hok with
  | fits hfits hok =>
      obtain ⟨pieces, hpart, -⟩ := fillFrom_agree hok
      rw [hpart]
      exact ⟨rfl, rfl, hv.count_pos, .inl rfl⟩
  | split taken left hover hsplits htake =>
      have hsplit := takePrefix_eq_ok htake
      refine ⟨hsplit.start_eq, hsplit.kind_eq, hsplit.count_pos, ?_⟩
      have hmin := hsplit.count_eq
      have hblock := hsplit.block_le
      simp only [room, partBytes, zero_add] at hmin hblock
      omega
  | stop hover hsplits => exact absurd (.inl rfl) hsplits

theorem countPart_eq_ok {partCount partCount' offset : ℕ}
    (h : countPart partCount offset = .ok partCount') : partCount' = partCount + 1 :=
  (Except.ok.inj (failIf_bind_eq_ok.mp h).2).symm

theorem countTrailing_eq_ok {trailing : Bool} {partCount partCount' : ℕ}
    (h : countTrailing trailing partCount = .ok partCount') :
    partCount' = partCount + trailing.toNat := by
  cases trailing with
  | false => exact (Except.ok.inj h).symm
  | true => exact countPart_eq_ok h

theorem writePart_length {input : ImageSource} {totalBlocks effectiveLimit : ℕ}
    {tooLarge : String} {written written' : WrittenParts}
    (h : writePart input blockSize totalBlocks effectiveLimit fragments tooLarge written
      = .ok written') : written'.parts.length = written.parts.length + 1 := by
  obtain ⟨part, -, hparts⟩ := writePart_parts h
  rw [hparts, List.length_append, List.length_singleton]

theorem writeTrailing_length {input : ImageSource} {totalBlocks effectiveLimit : ℕ}
    {trailing : Bool} {written written' : WrittenParts}
    (h : writeTrailing input blockSize totalBlocks effectiveLimit trailing written = .ok written') :
    written'.parts.length = written.parts.length + trailing.toNat := by
  cases trailing with
  | false =>
      cases h
      rfl
  | true => exact writePart_length h

/-- The fragments in front of the counting pass, the pieces that it keeps of them, and the number
of their parts. -/
inductive Segments (payloadBudget blockSize : ℕ) : List Fragment → List Fragment → ℕ → Prop
  | nil : Segments payloadBudget blockSize [] [] 0
  | cons {kept count : ℕ} {fragments pieces : List Fragment} {cut : PartCut} (hne : fragments ≠ [])
      (hcut : fillPart (permitSegment blockSize kept) payloadBudget blockSize fragments [] 0 0
        = .ok cut) (hrest : Segments payloadBudget blockSize cut.rest pieces count) :
      Segments payloadBudget blockSize fragments (cut.part ++ pieces)
        (1 + cut.trailingEmptyPart.toNat + count)

theorem segmentParts_segments {fuel : ℕ} {result result' : Segmentation}
    (hvs : ∀ f ∈ fragments, f.Valid) (hfuel : fragmentBlocks fragments ≤ fuel)
    (hok : segmentParts payloadBudget blockSize fuel fragments result = .ok result') :
    ∃ pieces count, result'.fragments = result.fragments ++ pieces ∧
      result'.partCount = result.partCount + count ∧
      Segments payloadBudget blockSize fragments pieces count := by
  induction fuel generalizing fragments result with
  | zero =>
      obtain rfl := fragmentBlocks_eq_zero hvs (by omega)
      cases hok
      exact ⟨[], 0, by simp, rfl, .nil⟩
  | succ fuel ih =>
      cases fragments with
      | nil =>
          cases hok
          exact ⟨[], 0, by simp, rfl, .nil⟩
      | cons fragment rest =>
          obtain ⟨cut, hcut, hok⟩ := bind_eq_ok.mp hok
          obtain ⟨partCount, hcnt, hok⟩ := bind_eq_ok.mp hok
          obtain ⟨partCount', htrailing, hok⟩ := bind_eq_ok.mp hok
          have hrestValid := (fillPart_blocks [] hvs (by simp) (.inr (by simp)) hcut).2.2.1
          have hlt := fillPart_rest_lt hvs (by simp) hcut
          obtain ⟨pieces, count, hfragments, hparts, hsegs⟩ := ih hrestValid (by omega) hok
          refine ⟨cut.part ++ pieces, _, ?_, ?_, .cons (by simp) hcut hsegs⟩
          · rw [hfragments, List.append_assoc]
          · rw [hparts]
            simp only
            rw [countTrailing_eq_ok htrailing, countPart_eq_ok hcnt]
            omega

section

variable {pieces : List Fragment} {count : ℕ}
  (h : Segments payloadBudget blockSize fragments pieces count) (hvs : ∀ f ∈ fragments, f.Valid)
include h hvs

theorem Segments.valid : ∀ f ∈ pieces, f.Valid := by
  induction h with
  | nil => exact hvs
  | cons hne hcut hrest ih =>
      obtain ⟨-, hpart, hrestValid, -⟩ := fillPart_blocks [] hvs (by simp) (.inr hne) hcut
      exact List.forall_mem_append.mpr ⟨hpart, ih hrestValid⟩

theorem Segments.fronts : Fronts payloadBudget blockSize pieces fragments := by
  cases h with
  | nil => exact trivial
  | @cons kept count _ pieces cut hne hcut hrest =>
      obtain ⟨fragment, rest, rfl⟩ := List.exists_cons_of_ne_nil hne
      exact fillFrom_front (hvs fragment (by simp)) hcut pieces

end

variable (payloadBudget blockSize) in
/-- The counting pass has cut what is left of a list at a place of it: it fills the part from
there on, or it has closed the part before. -/
inductive Filled : List Fragment → List Fragment → Prop
  | filling {permit : ℕ → Fragment → PlanM Unit} {part left : List Fragment} {cut : PartCut}
      (hok : fillFrom permit payloadBudget blockSize left part = .ok cut)
      (hroom : cut.rest ≠ [] → room payloadBudget blockSize cut.part ≤ payloadBudget / 8)
      (hrest : Filled [] cut.rest) : Filled part left
  | closed {part left : List Fragment} (hpart : part ≠ [])
      (hroom : left ≠ [] → room payloadBudget blockSize part ≤ payloadBudget / 8)
      (hover : ∀ next rest, left = next :: rest → Overfull payloadBudget blockSize part next)
      (hrest : Filled [] left) : Filled part left
  | done : Filled [] []

/-- The writing pass makes as many parts of the pieces, and closes no part that has room. -/
theorem Segments.filled {pieces : List Fragment} {count : ℕ}
    (h : Segments payloadBudget blockSize fragments pieces count)
    (hvs : ∀ f ∈ fragments, f.Valid) {input : ImageSource} {totalBlocks effectiveLimit fuel : ℕ}
    {written written' : WrittenParts} (hfuel : fragmentBlocks pieces ≤ fuel)
    (hok : serializeParts input payloadBudget blockSize totalBlocks effectiveLimit fuel pieces written
      = .ok written') : written'.parts.length = written.parts.length + count ∧
        Filled payloadBudget blockSize [] fragments := by
  induction h generalizing fuel written with
  | nil =>
      refine ⟨?_, .done⟩
      cases fuel <;> exact congrArg (List.length ∘ WrittenParts.parts) (Except.ok.inj hok).symm
  | @cons kept count fragments pieces cut hne hcut hrest ih =>
      have hallValid := (Segments.cons hne hcut hrest).valid hvs
      obtain ⟨-, -, hrestValid, hpartNe⟩ := fillPart_blocks [] hvs (by simp) (.inr hne) hcut
      obtain ⟨cutPieces, hcutPart, hagree⟩ := fillFrom_agree hcut
      rw [List.nil_append] at hcutPart
      subst hcutPart
      have hne' : cut.part ++ pieces ≠ [] := by simp [hpartNe]
      obtain ⟨first, others, hcons⟩ := List.exists_cons_of_ne_nil hne'
      have hpos := fragmentBlocks_pos hallValid hne'
      obtain ⟨fuel, rfl⟩ : ∃ n, fuel = n + 1 := ⟨fuel - 1, by omega⟩
      rw [hcons, serializeParts, ← hcons] at hok
      obtain ⟨cut', hcut', hok⟩ := bind_eq_ok.mp hok
      obtain ⟨mid, hmid, hok⟩ := bind_eq_ok.mp hok
      obtain ⟨next, hnext, hok⟩ := bind_eq_ok.mp hok
      have hfronts := hrest.fronts hrestValid
      obtain ⟨hpart, hrest', htrail, hroom⟩ := hagree pieces hfronts cut' hcut'
      have hlt := fillPart_rest_lt hallValid hne' hcut'
      rw [hrest'] at hok hlt
      rw [hpart, flushPart, if_neg hpartNe] at hmid
      rw [htrail] at hnext
      obtain ⟨hlen, hfilled⟩ := ih hrestValid (by omega) hok
      refine ⟨?_, .filling hcut (fun hne => hroom (mt hfronts.nil_iff.mp hne)) hfilled⟩
      rw [hlen, writeTrailing_length hnext, writePart_length hmid]
      omega

end KairosBoot
