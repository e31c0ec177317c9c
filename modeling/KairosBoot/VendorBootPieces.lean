import KairosBoot.PieceTable
import KairosBoot.VendorBootParse

/-! # Reading through the pieces of a repacked image

`Presents start pieces bytes` says that the pieces follow one another from `start`, that they are
backed by sources that hold what the pieces stand for, and that together they stand for `bytes`.
An image with such pieces passes both internal checks (`Presents.checkPieces`) and answers every
request with the requested window, so its search for a piece never fails
(`VendorBootImageSource.readAt_eq`). -/

namespace KairosBoot.VendorBoot

open ByteLib Guards Pieces

/-- The bytes a piece stands for. -/
def Piece.data (piece : Piece) : Bytes :=
  match piece.content with
  | .source source sourceOffset => slice source.contents sourceOffset piece.size
  | .bytes data => data
  | .zero => List.replicate piece.size 0

/-- The piece lies inside what backs it. -/
def Piece.Backed (piece : Piece) : Prop :=
  match piece.content with
  | .source source sourceOffset =>
      source.Holds source.contents ∧ sourceOffset + piece.size ≤ source.contents.length
  | .bytes data => data.length = piece.size
  | .zero => True

theorem Piece.Backed.length_data {piece : Piece} (h : piece.Backed) :
    piece.data.length = piece.size := by
  unfold Piece.Backed at h
  unfold Piece.data
  split at h
  · exact length_slice h.2
  · exact h
  · exact List.length_replicate

/-- The pieces stand for `bytes` from `start` on. -/
structure Presents (start : ℕ) (pieces : List Piece) (bytes : Bytes) : Prop where
  tiles : Tiles Piece.outputOffset Piece.data start pieces bytes
  backed : ∀ piece ∈ pieces, piece.Backed

theorem presents_nil (start : ℕ) : Presents start [] [] := ⟨rfl, by simp⟩

variable {bytes : Bytes} {pieces : List Piece}

theorem Presents.append {start next : ℕ} {more : List Piece} {rest : Bytes}
    (h : Presents start pieces bytes) (hnext : next = start + bytes.length)
    (hmore : Presents next more rest) : Presents start (pieces ++ more) (bytes ++ rest) := by
  subst hnext
  exact ⟨h.tiles.append hmore.tiles, fun piece hp =>
    (List.mem_append.mp hp).elim (h.backed piece) (hmore.backed piece)⟩

theorem presents_singleton (piece : Piece) (hbacked : piece.Backed) (hsize : piece.size ≠ 0) :
    Presents piece.outputOffset [piece] piece.data where
  tiles := ⟨rfl, by rw [hbacked.length_data]; omega, [], (List.append_nil _).symm, rfl⟩
  backed := by simpa using hbacked

theorem presents_addSource {source : ImageSource} (h : source.Holds bytes) (output : ℕ)
    {size sourceOffset : ℕ} (hin : sourceOffset + size ≤ bytes.length) :
    Presents output (addSource output size source sourceOffset) (slice bytes sourceOffset size) := by
  unfold addSource
  split
  · next hsize =>
    have hpiece := presents_singleton ⟨output, size, .source source sourceOffset⟩
      ⟨h.contents_eq.symm ▸ h, h.contents_eq.symm ▸ hin⟩ hsize
    simpa only [Piece.data, h.contents_eq] using hpiece
  · next hsize =>
    rw [not_not.mp hsize, slice_zero_len]
    exact presents_nil output

theorem presents_addSource_all {source : ImageSource} (h : source.Holds bytes) (output : ℕ) :
    Presents output (addSource output source.size source 0) bytes := by
  have hall : 0 + source.size ≤ bytes.length := by rw [h.size_eq, zero_add]
  have hpcs := presents_addSource h output hall
  rwa [h.size_eq, slice_all, ← h.size_eq] at hpcs

theorem presents_addBytes (output : ℕ) (bytes : Bytes) :
    Presents output (addBytes output bytes) bytes := by
  unfold addBytes
  split
  · next hne =>
    exact presents_singleton ⟨output, bytes.length, .bytes bytes⟩ rfl (by simpa using hne)
  · next hemp =>
    rw [not_not.mp hemp]
    exact presents_nil output

theorem presents_addZero (output size : ℕ) :
    Presents output (addZero output size) (List.replicate size 0) := by
  unfold addZero
  split
  · next hsize => exact presents_singleton ⟨output, size, .zero⟩ trivial hsize
  · next hsize =>
    rw [not_not.mp hsize]
    exact presents_nil output

/-! ### The internal checks -/

/-- The pieces are collected in order, so sorting them changes nothing. -/
theorem Presents.insertionSort_eq {start : ℕ} (h : Presents start pieces bytes) :
    pieces.insertionSort (fun a b => a.outputOffset ≤ b.outputOffset) = pieces :=
  h.tiles.pairwise.1.insertionSort_eq

theorem Presents.checkPieces {start : ℕ} (h : Presents start pieces bytes)
    (hmax : start + bytes.length ≤ uint64Max) :
    VendorBoot.checkPieces start pieces = .ok (start + bytes.length) := by
  induction pieces generalizing start bytes with
  | nil =>
      rw [h.tiles.eq_nil]
      rfl
  | cons piece rest ih =>
      have hsize := (h.backed piece (by simp)).length_data
      obtain ⟨hoff, -, tail, rfl, htail⟩ := h.tiles
      rw [List.length_append] at hmax ⊢
      rw [VendorBoot.checkPieces, failIf_bind_of_not (not_not.mpr hoff),
        checkedAdd_of_le (by omega), orFail_some_bind, ← hsize,
        ih ⟨htail, fun p hp => h.backed p (by simp [hp])⟩ (by omega), add_assoc]

/-! ### Reading -/

theorem readPieces_eq (h : Presents 0 pieces bytes) {offset requested : ℕ}
    (hle : offset + requested ≤ bytes.length) :
    readPieces pieces offset requested requested [] = .ok (slice bytes offset requested) := by
  refine fill_eq hle (fun fuel done hlen => ?_) fun fuel done hlt => ?_
  · cases fuel with
    | zero => rfl
    | succ fuel => rw [readPieces, if_neg hlen.not_lt]
  · obtain ⟨piece, hp, hfind, hlo, hhi⟩ := h.tiles.find?
      (fun p hp => (h.backed p hp).length_data.symm) (Nat.zero_le (offset + done.length)) (by omega)
    have hbacked := h.backed piece hp
    obtain ⟨within, hin⟩ : ∃ i, offset + done.length = piece.outputOffset + i :=
      ⟨offset + done.length - piece.outputOffset, by omega⟩
    have hwin : ∀ n, within + n ≤ piece.size → slice bytes (piece.outputOffset + within) n
        = slice piece.data within n := fun n hn =>
      h.tiles.slice_within hp (by rw [hbacked.length_data]; exact hn)
    rw [hbacked.length_data] at hhi
    rw [readPieces, if_pos hlt]
    simp only [hfind]
    rw [hin, Nat.add_sub_cancel_left]
    generalize hamt : min (requested - done.length) (piece.size - within) = amount
    unfold Piece.Backed at hbacked
    unfold Piece.data at hwin
    split at hbacked
    · next source sourceOffset hcont =>
      simp only [hcont] at hwin ⊢
      obtain ⟨hsrc, hinside⟩ := hbacked
      obtain ⟨n, hpos, hn, hread⟩ := hsrc.serves (sourceOffset + within) amount
        (by omega) (by omega)
      have hgot : (slice source.contents (sourceOffset + within) n).length = n :=
        length_slice (by omega)
      refine ⟨n, hpos, by omega, ?_⟩
      simp only [hread, hgot]
      rw [if_neg (by omega), hwin n (by omega), slice_slice _ (by omega)]
    · next data hcont =>
      simp only [hcont] at hwin ⊢
      exact ⟨amount, by omega, by omega, by rw [hwin _ (by omega)]⟩
    · next hcont =>
      simp only [hcont] at hwin ⊢
      refine ⟨amount, by omega, by omega, ?_⟩
      rw [hwin _ (by omega), slice_replicate _ (by omega)]

/-- Every request is answered with the requested window, cut at the end of the image. -/
theorem VendorBootImageSource.readAt_eq {image : VendorBootImageSource}
    (h : Presents 0 image.pieces bytes) (hsize : image.size = bytes.length) (offset length : ℕ) :
    image.readAt offset length = .ok (slice bytes offset length) := by
  unfold VendorBootImageSource.readAt
  split
  · next hnone =>
    rcases hnone with rfl | hpast
    · rw [slice_zero_len]
    · rw [slice, List.drop_eq_nil_of_le (by omega), List.take_nil]
  · next hsome =>
    rw [hsize, readPieces_eq h (by omega)]
    simp only [slice, Except.ok.injEq, List.take_eq_take_iff, List.length_drop]
    omega

theorem VendorBootImageSource.holds {image : VendorBootImageSource}
    (h : Presents 0 image.pieces bytes) (hsize : image.size = bytes.length) :
    image.toImageSource.Holds bytes where
  size_eq := hsize
  serves := fun offset length hpos _ =>
    ⟨length, hpos, le_rfl, image.readAt_eq h hsize offset length⟩

end KairosBoot.VendorBoot
