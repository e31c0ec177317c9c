import KairosBoot.SparseGrammar

/-! # The reader accepts exactly the grammar

The chunk loop is handled one round at a time: `readChunk_eq_ok_iff` is the step, which reads
one record of the file and appends it to the table, and `readChunks_eq_ok_iff` the run.
`foldlM_verifyChunk` follows the running checksum.  `openSparseImage_eq_ok_iff` puts them
together: the reader succeeds exactly on the files of `SparseGrammar` and returns `imageOf` the
records. -/

namespace KairosBoot

open ByteLib Guards ChunkTable ChunkRecord

/-- The bounds a header has because its fields are 16 and 32 bits wide, and the checks that are
made before the chunk loop. -/
structure HeaderBounds (header : SparseHeader) : Prop where
  chunk_header_ge : kChunkHeaderSize ≤ header.chunkHeaderSize
  block_pos : 0 < header.blockSize
  block_lt : header.blockSize < 2 ^ 32
  total_lt : header.totalBlocks < 2 ^ 32

/-- What the chunk loop keeps: as many blocks as bytes of output, and no more than declared. -/
structure ChunkTable.Consistent (header : SparseHeader) (table : ChunkTable) : Prop where
  output_eq : table.outputOffset = table.producedBlocks * header.blockSize
  produced_le : table.producedBlocks ≤ header.totalBlocks

theorem ChunkTable.Consistent.push {header : SparseHeader} {table : ChunkTable}
    (ht : table.Consistent header) {r : ChunkRecord}
    (hle : table.producedBlocks + r.blocks ≤ header.totalBlocks) :
    (table.push header r).Consistent header := by
  refine ⟨?_, hle⟩
  simp only [ChunkTable.push, ht.output_eq]
  ring

theorem ChunkTable.start_consistent (header : SparseHeader) :
    (start header).Consistent header := ⟨by simp [start], Nat.zero_le _⟩

theorem HeaderBounds.mul_le {header : SparseHeader} (hb : HeaderBounds header) {n : ℕ}
    (hn : n < 2 ^ 32) : n * header.blockSize ≤ uint64Max := by
  have h1 : n * header.blockSize ≤ (2 ^ 32 - 1) * (2 ^ 32 - 1) :=
    Nat.mul_le_mul (by omega) (by have := hb.block_lt; omega)
  have h2 : (2 ^ 32 - 1) * (2 ^ 32 - 1) ≤ uint64Max := by decide
  omega

section

variable {source : ImageSource} {bytes : Bytes} {header : SparseHeader}

variable {records : List ChunkRecord} {offset finish : ℕ} {r : ChunkRecord} {table : ChunkTable}

/-! ### Records -/

/-- The header fields of the chunk at `offset`, read through the 12-byte chunk header. -/
theorem chunkHeader_fields (bytes : Bytes) (offset : ℕ) :
    readU16 (slice bytes offset kChunkHeaderSize) 0 = readU16 bytes offset ∧
      readU32 (slice bytes offset kChunkHeaderSize) 4 = readU32 bytes (offset + 4) ∧
      readU32 (slice bytes offset kChunkHeaderSize) 8 = readU32 bytes (offset + 8) :=
  ⟨getLE_slice bytes (by decide), getLE_slice bytes (by decide), getLE_slice bytes (by decide)⟩

/-- Records that stand one after the other from `offset` to `finish`. -/
def ChunksBetween (bytes : Bytes) (header : SparseHeader) :
    ℕ → List ChunkRecord → ℕ → Prop
  | offset, [], finish => offset = finish
  | offset, r :: rs, finish => ChunkAt bytes header offset r ∧
      ChunksBetween bytes header (offset + header.chunkHeaderSize + r.payload.length) rs finish

theorem chunksBetween_length_iff :
    ChunksBetween bytes header offset records bytes.length ↔
      ChunksAt bytes header offset records := by
  induction records generalizing offset with
  | nil => rfl
  | cons r rs ih => exact and_congr_right fun _ => ih

theorem layout_kinds (header : SparseHeader) (offset output : ℕ) (records : List ChunkRecord) :
    (layout header offset output records).map (·.kind) = records.map (·.kind) := by
  induction records generalizing offset output with
  | nil => rfl
  | cons r rs ih => simp [layout, ih, toChunk]

/-- Every checksum chunk holds the CRC-32 of `pre` and the data before it. -/
def ChecksumsFrom (blockSize : ℕ) (pre : Bytes) (records : List ChunkRecord) : Prop :=
  ∀ before r after, records = before ++ r :: after → r.kind = .crc32 →
    r.word = crc32 (pre ++ expandRecords blockSize before)

theorem checksumsFrom_nil (blockSize : ℕ) (pre : Bytes) : ChecksumsFrom blockSize pre [] := by
  intro before r after h
  simp at h

theorem checksumsFrom_cons {blockSize : ℕ} {pre : Bytes} {rs : List ChunkRecord} :
    ChecksumsFrom blockSize pre (r :: rs) ↔
      (r.kind = .crc32 → r.word = crc32 pre) ∧
        ChecksumsFrom blockSize (pre ++ r.expand blockSize) rs := by
  constructor
  · intro h
    refine ⟨fun hk => by simpa using h [] r rs rfl hk, ?_⟩
    intro before r' after hsplit hk
    have := h (r :: before) r' after (by rw [hsplit]; rfl) hk
    simpa [List.append_assoc] using this
  · rintro ⟨hhead, htail⟩ before r' after hsplit hk
    cases before with
    | nil =>
        obtain ⟨rfl, -⟩ := List.cons.inj hsplit
        simpa using hhead hk
    | cons b before =>
        obtain ⟨rfl, hrest⟩ := List.cons.inj hsplit
        simpa [List.append_assoc] using htail before r' after hrest hk

theorem checksumsHold_iff {blockSize : ℕ} :
    ChecksumsHold blockSize records ↔ ChecksumsFrom blockSize [] records := by
  simp only [ChecksumsHold, ChecksumsFrom, List.nil_append]

theorem fillPattern_word (h : r.payload.length = 4) : fillPattern r.word = r.payload := by
  have hlt : leNat r.payload < 2 ^ 32 := by
    have := leNat_lt r.payload
    rw [h] at this
    exact lt_of_lt_of_eq this (by norm_num)
  rw [fillPattern, word, BitVec.toNat_ofNat, Nat.mod_eq_of_lt hlt, ← h, leBytes_leNat]

/-! ### One round of the chunk loop -/

section

variable (h : source.Holds bytes)
include h

/-- The four payload bytes of a record are read back with the word they hold. -/
theorem readExact_payload {payloadOffset : ℕ} (hlen : r.payload.length = 4)
    (hr : r.payload = slice bytes payloadOffset r.payload.length)
    (hin : payloadOffset + r.payload.length ≤ bytes.length) :
    readExact source source.size payloadOffset 4 = .ok r.payload ∧
      readU32 r.payload 0 = leNat r.payload := by
  rw [hlen] at hr hin
  refine ⟨by rw [readExact_of_le h hin, ← hr], ?_⟩
  rw [readU32, getLE, ← hlen, slice_all]

/-- The payload check passes exactly for the payload length of the kind, and finds its word. -/
theorem readPayload_eq_ok_iff (hk : r.kind ≠ .crc32) {inputOffset payloadOffset : ℕ}
    {fillValue : Option (BitVec 32)} (hr : r.payload = slice bytes payloadOffset r.payload.length)
    (hin : payloadOffset + r.payload.length ≤ bytes.length) (hpos : 1 ≤ r.blocks) :
    readPayload source source.size inputOffset r.kind payloadOffset r.payload.length
        (r.blocks * header.blockSize) = .ok fillValue ↔
      r.WellFormed header.blockSize ∧ fillValue = if r.kind = .fill then some r.word else none := by
  unfold readPayload ChunkRecord.WellFormed
  cases hkind : r.kind with
  | raw => simp [hpos, @eq_comm _ none]
  | fill =>
      simp only [failIf_bind_eq_ok, not_not, if_true, hpos, true_and]
      refine and_congr_right fun hlen => ?_
      obtain ⟨hread, hword⟩ := readExact_payload h hlen hr hin
      rw [hread, ok_bind, hword, Except.ok.injEq, eq_comm]
      rfl
  | dontCare => simp [hpos, @eq_comm _ none]
  | crc32 => exact absurd hkind hk

/-- What passes the chunk loop is a record of the file. -/
theorem chunkAt_of_readChunk {table' : ChunkTable} (ht : table.Consistent header)
    (hok : readChunk source source.size header (header.totalBlocks * header.blockSize) table
      = .ok table') :
    ∃ r, ChunkAt bytes header table.inputOffset r ∧
      table.producedBlocks + r.blocks ≤ header.totalBlocks ∧ table' = table.push header r := by
  obtain ⟨hf1, hf2, hf3⟩ := chunkHeader_fields bytes table.inputOffset
  rw [readChunk, bind_eq_ok] at hok
  obtain ⟨raw, hraw, hok⟩ := hok
  obtain ⟨-, rfl⟩ := (readExact_eq_ok_iff h).mp hraw
  simp only [hf1, hf2, hf3, bind_eq_ok, failIf_eq_ok, exists_const, orFail_eq_ok] at hok
  obtain ⟨hsize, finish, hfin, hin, payloadOffset, hpay, kind, hkind, outputSize, hout, hok⟩ := hok
  rw [checkedAdd_eq_some hfin, h.size_eq] at hin
  have hkind' := chunkKind_eq_some_iff.mp hkind
  obtain ⟨rfl, -⟩ := checkedMultiply_eq_some hout
  have hfin' := checkedAdd_eq_some hfin
  have hpay' := checkedAdd_eq_some hpay
  subst hfin' hpay'
  -- the record: the kind, the block count and the payload window the header announces
  obtain ⟨r, hr⟩ : ∃ r : ChunkRecord, r = ⟨kind, readU32 bytes (table.inputOffset + 4),
      slice bytes (table.inputOffset + header.chunkHeaderSize)
        (readU32 bytes (table.inputOffset + 8) - header.chunkHeaderSize)⟩ := ⟨_, rfl⟩
  have hlen : r.payload.length
      = readU32 bytes (table.inputOffset + 8) - header.chunkHeaderSize := by
    rw [hr]; exact length_slice (by omega)
  have hrk : r.kind = kind := by rw [hr]
  have hrb : r.blocks = readU32 bytes (table.inputOffset + 4) := by rw [hr]
  have hrp : r.payload = slice bytes (table.inputOffset + header.chunkHeaderSize)
      r.payload.length := by rw [hlen, hr]
  have hrin : table.inputOffset + header.chunkHeaderSize + r.payload.length ≤ bytes.length := by
    omega
  have hat : r.WellFormed header.blockSize → ChunkAt bytes header table.inputOffset r := fun hwf =>
    ⟨by rw [hkind', hrk], hrb.symm, by omega, hrin, hrp, hwf⟩
  have hnext : table.inputOffset + readU32 bytes (table.inputOffset + 8)
      = table.inputOffset + header.chunkHeaderSize + r.payload.length := by omega
  rw [← hlen, ← hrb, ← hrk, hnext] at hok
  split at hok
  · next hk =>
    rw [pushChecksumChunk, failIf_bind_eq_ok] at hok
    obtain ⟨hshape, hok⟩ := hok
    rw [not_or, not_not, not_not] at hshape
    have hwf : r.WellFormed header.blockSize := by simp [ChunkRecord.WellFormed, hk, hshape]
    obtain ⟨hread, hword⟩ := readExact_payload h hshape.2 hrp hrin
    rw [hread, ok_bind, hword] at hok
    refine ⟨r, hat hwf, by rw [hshape.1]; exact ht.produced_le, ?_⟩
    rw [← Except.ok.inj hok]
    simp [push, toChunk, word, hk, hshape.1]
  · next hk =>
    simp only [pushDataChunk, bind_eq_ok, failIf_eq_ok, exists_const, orFail_eq_ok] at hok
    obtain ⟨hpos, outputEnd, hend, produced, hproduced, hle, fillValue, hfill, hok⟩ := hok
    have hend' := checkedAdd_eq_some hend
    have hproduced' := checkedAdd_eq_some hproduced
    subst hend' hproduced'
    obtain ⟨hwf, rfl⟩ := (readPayload_eq_ok_iff h hk hrp hrin (by omega)).mp hfill
    refine ⟨r, hat hwf, by omega, ?_⟩
    rw [← Except.ok.inj hok]
    simp [push, toChunk, hk]

variable (hb : HeaderBounds header)
include hb

theorem readChunk_of_chunkAt (ht : table.Consistent header)
    (hat : ChunkAt bytes header table.inputOffset r)
    (hle : table.producedBlocks + r.blocks ≤ header.totalBlocks) :
    readChunk source source.size header (header.totalBlocks * header.blockSize) table
      = .ok (table.push header r) := by
  have hmax := h.length_le
  have hin := hat.inside
  have hge := hb.chunk_header_ge
  have hlt := hb.total_lt
  obtain ⟨hf1, hf2, hf3⟩ := chunkHeader_fields bytes table.inputOffset
  have hout : checkedMultiply r.blocks header.blockSize = some (r.blocks * header.blockSize) :=
    checkedMultiply_of_le (hb.mul_le (by omega))
  have hsub : header.chunkHeaderSize + r.payload.length - header.chunkHeaderSize
      = r.payload.length := Nat.add_sub_cancel_left _ _
  rw [readChunk, readExact_of_le h (by unfold kChunkHeaderSize at hge ⊢; omega), ok_bind]
  simp only [hf1, hf2, hf3, hat.type_eq, hat.blocks_eq, hat.size_eq, hsub]
  rw [failIf_bind_of_not (by omega), checkedAdd_of_le (by omega), orFail_some_bind,
    failIf_bind_of_not (by rw [h.size_eq]; omega), checkedAdd_of_le (by omega), orFail_some_bind,
    chunkKind_eq_some_iff.mpr rfl, orFail_some_bind, hout, orFail_some_bind]
  split
  · next hk =>
    have hwf := hat.wellFormed
    simp only [ChunkRecord.WellFormed, hk] at hwf
    obtain ⟨hread, hword⟩ := readExact_payload h hwf.2 hat.payload_eq hin
    rw [pushChecksumChunk, failIf_bind_of_not (by omega), hread, ok_bind, hword]
    simp [push, toChunk, word, hk, hwf.1, add_assoc]
  · next hk =>
    have hpos := hat.wellFormed.blocks_pos hk
    have hend : table.outputOffset + r.blocks * header.blockSize
        = (table.producedBlocks + r.blocks) * header.blockSize := by
      rw [ht.output_eq]; ring
    have hend_le := Nat.mul_le_mul_right header.blockSize hle
    have htot := hb.mul_le hlt
    rw [pushDataChunk, failIf_bind_of_not (by omega), checkedAdd_of_le (by omega),
      orFail_some_bind, checkedAdd_of_le (by unfold uint64Max; omega), orFail_some_bind,
      failIf_bind_of_not (by omega),
      (readPayload_eq_ok_iff h hk hat.payload_eq hin hpos).mpr ⟨hat.wellFormed, rfl⟩, ok_bind]
    simp [push, toChunk, hk, add_assoc]

/-- One round of the chunk loop reads one record of the file. -/
theorem readChunk_eq_ok_iff {table' : ChunkTable} (ht : table.Consistent header) :
    readChunk source source.size header (header.totalBlocks * header.blockSize) table = .ok table' ↔
      ∃ r, ChunkAt bytes header table.inputOffset r ∧
        table.producedBlocks + r.blocks ≤ header.totalBlocks ∧ table' = table.push header r := by
  refine ⟨chunkAt_of_readChunk h ht, ?_⟩
  rintro ⟨r, hat, hle, rfl⟩
  exact readChunk_of_chunkAt h hb ht hat hle

/-! ### The chunk loop -/

/-- A run of the chunk loop reads the declared number of records. -/
theorem readChunks_eq_ok_iff {n : ℕ} {table' : ChunkTable} (ht : table.Consistent header) :
    readChunks source source.size header (header.totalBlocks * header.blockSize) n table
        = .ok table' ↔
      ∃ records, records.length = n ∧
        ChunksBetween bytes header table.inputOffset records table'.inputOffset ∧
        table.producedBlocks + totalRecordBlocks records ≤ header.totalBlocks ∧
        table' = records.foldl (push header) table := by
  induction n generalizing table with
  | zero =>
      rw [readChunks, Except.ok.injEq]
      constructor
      · rintro rfl
        exact ⟨[], rfl, rfl, ht.produced_le, rfl⟩
      · rintro ⟨records, hlen, -, -, rfl⟩
        rw [List.eq_nil_of_length_eq_zero hlen]
        rfl
  | succ n ih =>
      rw [readChunks, bind_eq_ok]
      constructor
      · rintro ⟨next, hnext, hrest⟩
        obtain ⟨r, hat, hle, rfl⟩ := (readChunk_eq_ok_iff h hb ht).mp hnext
        obtain ⟨rs, hlen, hbtw, hsum, rfl⟩ := (ih (ht.push hle)).mp hrest
        refine ⟨r :: rs, by simp [hlen], ⟨hat, hbtw⟩, ?_, rfl⟩
        rw [totalRecordBlocks_cons, ← add_assoc]
        exact hsum
      · rintro ⟨records, hlen, hbtw, hsum, rfl⟩
        cases records with
        | nil => simp at hlen
        | cons r rs =>
            rw [totalRecordBlocks_cons, ← add_assoc] at hsum
            have hle : table.producedBlocks + r.blocks ≤ header.totalBlocks := by omega
            exact ⟨table.push header r, readChunk_of_chunkAt h hb ht hbtw.1 hle,
              (ih (ht.push hle)).mpr ⟨rs, by simpa using hlen, hbtw.2, hsum, rfl⟩⟩

/-! ### Checksums -/

/-- The running checksum after a data chunk is the checksum of the longer expansion. -/
theorem verifyChunk_data {output : ℕ} (hat : ChunkAt bytes header offset r) (hk : r.kind ≠ .crc32)
    (pre : Bytes) :
    verifyChunk source source.size (crc32 pre) (r.toChunk header offset output)
      = .ok (crc32 (pre ++ r.expand header.blockSize)) := by
  have hle : r.blocks * header.blockSize ≤ uint64Max :=
    hb.mul_le (hat.blocks_eq ▸ readU32_lt bytes (offset + 4))
  have hwf := hat.wellFormed
  unfold verifyChunk expand
  cases hkind : r.kind with
  | raw =>
      simp only [ChunkRecord.WellFormed, hkind] at hwf
      have hin := hat.inside
      simp only [toChunk, hkind]
      rw [updateCrcFromSource_eq h _ le_rfl (by omega), updateCrc32_crc32, ← hwf.2,
        ← hat.payload_eq]
  | fill =>
      simp only [ChunkRecord.WellFormed, hkind] at hwf
      simp only [toChunk, hkind, if_true, Option.getD_some]
      rw [fillPattern_word hwf.2, updateCrcRepeated_eq _ hwf.2 hle, updateCrc32_crc32]
  | dontCare =>
      simp only [toChunk, hkind]
      rw [updateCrcRepeated_eq _ List.length_replicate hle, cyclic_replicate 0 0 (by decide),
        updateCrc32_crc32]
  | crc32 => exact absurd hkind hk

/-- The checksum loop succeeds exactly when every checksum chunk is right. -/
theorem foldlM_verifyChunk {output : ℕ} (hat : ChunksBetween bytes header offset records finish)
    (pre : Bytes) {crc : BitVec 32} :
    (layout header offset output records).foldlM (verifyChunk source source.size) (crc32 pre)
        = .ok crc ↔
      ChecksumsFrom header.blockSize pre records ∧
        crc = crc32 (pre ++ expandRecords header.blockSize records) := by
  induction records generalizing offset output pre with
  | nil =>
      simp only [layout, List.foldlM_nil, expandRecords_nil, List.append_nil, pure_eq_ok_iff,
        checksumsFrom_nil, true_and]
      exact eq_comm
  | cons r rs ih =>
      rw [layout, List.foldlM_cons, checksumsFrom_cons, expandRecords_cons, ← List.append_assoc]
      by_cases hk : r.kind = .crc32
      · have hexp : r.expand header.blockSize = [] := by simp [expand, hk]
        have hchunk : verifyChunk source source.size (crc32 pre) (r.toChunk header offset output)
            = failIf (some r.word ≠ some (crc32 pre)) ⟨.malformed, offset + header.chunkHeaderSize,
                "CRC32 chunk does not match the expanded data preceding it"⟩ >>= fun _ =>
                  .ok (crc32 pre) := by
          simp [verifyChunk, toChunk, hk]
        rw [hchunk, bind_assoc, failIf_bind_eq_ok]
        simp only [ok_bind, hexp, List.append_nil, ih hat.2, not_not, Option.some.injEq, hk,
          forall_true_left, and_assoc]
      · rw [verifyChunk_data h hb hat.1 hk, ok_bind, ih hat.2]
        simp [hk]

/-- `verify_checksums` accepts exactly the right checksums. -/
theorem verifyChecksums_eq_ok_iff (hat : ChunksBetween bytes header offset records finish) :
    verifyChecksums source source.size header (layout header offset 0 records) = .ok () ↔
      ChecksumsHold header.blockSize records ∧
        (header.imageChecksum ≠ 0#32 →
          header.imageChecksum = crc32 (expandRecords header.blockSize records)) := by
  rw [verifyChecksums, checksumsHold_iff]
  split
  · next hskip =>
    obtain ⟨hnone, hzero⟩ := hskip
    have hkinds : ∀ r ∈ records, r.kind ≠ .crc32 := by
      intro r hr hk
      have hmem : SparseChunkKind.crc32 ∈ (layout header offset 0 records).map (·.kind) := by
        rw [layout_kinds, ← hk]
        exact List.mem_map_of_mem hr
      obtain ⟨chunk, hchunk, hck⟩ := List.mem_map.mp hmem
      exact hnone chunk hchunk hck
    refine iff_of_true rfl ⟨?_, fun hne => absurd hzero hne⟩
    intro before r after hsplit hk
    exact absurd hk (hkinds r (by rw [hsplit]; simp))
  · have hnil : (0#32 : BitVec 32) = crc32 [] := by decide
    rw [bind_eq_ok]
    simp only [hnil, foldlM_verifyChunk h hb hat, failIf_eq_ok, List.nil_append]
    constructor
    · rintro ⟨crc, ⟨hfrom, rfl⟩, hneg⟩
      exact ⟨hfrom, fun hne => by by_contra hc; exact hneg ⟨hne, hc⟩⟩
    · rintro ⟨hfrom, himage⟩
      exact ⟨_, ⟨hfrom, rfl⟩, fun hc => hc.2 (himage hc.1)⟩

end

/-! ### The whole reader -/

theorem parseHeader_slice (bytes : Bytes) :
    parseHeader (slice bytes 0 kSparseHeaderSize) = parseHeader bytes := by
  have h : ∀ off w, off + w ≤ kSparseHeaderSize →
      getLE (slice bytes 0 kSparseHeaderSize) off w = getLE bytes off w := by
    intro off w hle
    rw [getLE_slice bytes hle, zero_add]
  simp only [parseHeader, readU16, readU32]
  rw [h 4 2 (by decide), h 6 2 (by decide), h 8 2 (by decide), h 10 2 (by decide),
    h 12 4 (by decide), h 16 4 (by decide), h 20 4 (by decide), h 24 4 (by decide)]

theorem validateHeader_eq_ok_iff {sourceSize declared : ℕ}
    (hblk : header.blockSize < 2 ^ 32) (htot : header.totalBlocks < 2 ^ 32) :
    validateHeader sourceSize header = .ok declared ↔
      header.majorVersion = kAndroidSparseMajorVersion ∧
      kSparseHeaderSize ≤ header.fileHeaderSize ∧ HeaderBounds header ∧
      header.blockSize % 4 = 0 ∧ header.fileHeaderSize ≤ sourceSize ∧
      header.totalChunks ≤ kMaxSparseChunks ∧
      header.totalChunks * header.chunkHeaderSize ≤ uint64Max ∧
      header.totalChunks * header.chunkHeaderSize ≤ sourceSize - header.fileHeaderSize ∧
      declared = header.totalBlocks * header.blockSize := by
  simp only [validateHeader, bind_eq_ok, failIf_eq_ok, exists_const, orFail_eq_ok,
    not_or, not_not, not_lt, Except.ok.injEq]
  constructor
  · rintro ⟨hmajor, ⟨hfile, hchunk⟩, ⟨hne, hmod⟩, hin, hlim, d, hd, m, hm, hmin, rfl⟩
    obtain ⟨rfl, hmle⟩ := checkedMultiply_eq_some hm
    exact ⟨hmajor, hfile, ⟨hchunk, Nat.pos_of_ne_zero hne, hblk, htot⟩, hmod, hin, hlim,
      hmle, hmin, (checkedMultiply_eq_some hd).1⟩
  · rintro ⟨hmajor, hfile, hb, hmod, hin, hlim, hmle, hmin, rfl⟩
    exact ⟨hmajor, ⟨hfile, hb.chunk_header_ge⟩, ⟨hb.block_pos.ne', hmod⟩, hin, hlim, _,
      checkedMultiply_of_le (hb.mul_le htot), _, checkedMultiply_of_le hmle, hmin, rfl⟩

theorem ChunksAt.headers_le (hat : ChunksAt bytes header offset records) :
    offset + records.length * header.chunkHeaderSize ≤ bytes.length := by
  induction records generalizing offset with
  | nil =>
      have : offset = bytes.length := hat
      simp [this]
  | cons r rs ih =>
      have := ih hat.2
      rw [List.length_cons, Nat.succ_mul]
      omega

theorem parseHeader_bounds (bytes : Bytes) : (parseHeader bytes).blockSize < 2 ^ 32 ∧
    (parseHeader bytes).totalBlocks < 2 ^ 32 :=
  ⟨readU32_lt _ _, readU32_lt _ _⟩

theorem SparseGrammar.headerBounds (g : SparseGrammar bytes records) :
    HeaderBounds (parseHeader bytes) :=
  ⟨g.chunk_header, Nat.pos_of_ne_zero g.block_ne_zero, (parseHeader_bounds bytes).1,
    (parseHeader_bounds bytes).2⟩

/-- The table the chunk loop ends with, as the parsed image's. -/
theorem foldl_push_start (header : SparseHeader) (records : List ChunkRecord) :
    (records.foldl (push header) (start header)).chunks
        = layout header header.fileHeaderSize 0 records ∧
      (records.foldl (push header) (start header)).outputChunkIndices = dataIndices 0 records ∧
      (records.foldl (push header) (start header)).producedBlocks = totalRecordBlocks records ∧
      (records.foldl (push header) (start header)).outputOffset
        = totalRecordBlocks records * header.blockSize := by
  simpa [start] using foldl_push header records (start header)

/-- **The reader accepts exactly the grammar** and returns the image of its records. -/
theorem openSparseImage_eq_ok_iff (h : source.Holds bytes) {image : SparseImage} :
    openSparseImage source = .ok image ↔
      ∃ records, SparseGrammar bytes records ∧
        image = imageOf source (parseHeader bytes) records := by
  obtain ⟨hblk, htot⟩ := parseHeader_bounds bytes
  have hmagic : readU32 (slice bytes 0 kSparseHeaderSize) 0 = readU32 bytes 0 := by
    rw [readU32, getLE_slice bytes (by decide)]
    rfl
  simp only [openSparseImage, bind_eq_ok, failIf_eq_ok, exists_const, Except.ok.injEq,
    readExact_eq_ok_iff h, zero_add, not_not, not_or]
  constructor
  · rintro ⟨raw, ⟨hin, rfl⟩, hm, declared, hvld, table, htab, hend, ⟨hblks, -⟩, ⟨⟩, hverify, rfl⟩
    rw [parseHeader_slice] at *
    obtain ⟨hmajor, hfile, hb, hmod, -, hlim, -, -, rfl⟩ :=
      (validateHeader_eq_ok_iff hblk htot).mp hvld
    obtain ⟨records, hlen, hbtw, -, rfl⟩ := (readChunks_eq_ok_iff h hb (start_consistent _)).mp htab
    obtain ⟨hc, hi, hp, -⟩ := foldl_push_start (parseHeader bytes) records
    rw [hend, h.size_eq] at hbtw
    rw [hc] at hverify
    obtain ⟨hsums, himage⟩ := (verifyChecksums_eq_ok_iff h hb hbtw).mp hverify
    refine ⟨records, ⟨hin, hmagic ▸ hm, hmajor, hfile, hb.chunk_header_ge, hb.block_pos.ne', hmod,
      hlim, hlen, chunksBetween_length_iff.mp hbtw, hp ▸ hblks, hsums, himage⟩, ?_⟩
    rw [imageOf, hc, hi]
  · rintro ⟨records, g, rfl⟩
    have hb := g.headerBounds
    have hbtw := chunksBetween_length_iff.mpr g.chunks
    have hheaders := g.chunks.headers_le
    have hmax := h.length_le
    rw [g.count] at hheaders
    obtain ⟨hc, hi, hp, ho⟩ := foldl_push_start (parseHeader bytes) records
    have hfin : ∀ (rs : List ChunkRecord) (table : ChunkTable),
        ChunksBetween bytes (parseHeader bytes) table.inputOffset rs bytes.length →
        (rs.foldl (push (parseHeader bytes)) table).inputOffset = bytes.length := by
      intro rs
      induction rs with
      | nil => exact fun _ hr => hr
      | cons r rs ih => exact fun table hr => ih _ hr.2
    have hend := hfin records (start (parseHeader bytes)) hbtw
    refine ⟨slice bytes 0 kSparseHeaderSize, ⟨g.header_inside, rfl⟩, hmagic.trans g.magic, ?_⟩
    rw [parseHeader_slice]
    refine ⟨_, (validateHeader_eq_ok_iff hblk htot).mpr ⟨g.major, g.file_header, hb,
      g.block_mod_four, by rw [h.size_eq]; omega, g.chunk_limit, by omega,
      by rw [h.size_eq]; omega, rfl⟩, _, (readChunks_eq_ok_iff h hb
        (start_consistent _)).mpr ⟨records, g.count, ?_, ?_, rfl⟩, ?_, ?_, (), ?_, ?_⟩
    · rw [hend]; exact hbtw
    · simp [start, g.blocks]
    · rw [hend, h.size_eq]
    · rw [hp, ho, g.blocks]; exact ⟨rfl, rfl⟩
    · rw [hc]
      exact (verifyChecksums_eq_ok_iff h hb hbtw).mpr ⟨g.checksums, g.image_checksum⟩
    · rw [imageOf, hc, hi]

/-! ### Output intervals -/

/-- The output intervals of the chunks are non-empty and follow one another without a gap from
`start` to `finish`. -/
def OutputTiles : ℕ → List SparseChunk → ℕ → Prop
  | start, [], finish => start = finish
  | start, chunk :: rest, finish => chunk.outputOffset = start ∧ 0 < chunk.outputSize ∧
      OutputTiles (start + chunk.outputSize) rest finish

def dataChunks (chunks : List SparseChunk) : List SparseChunk :=
  chunks.filter fun chunk => decide (chunk.kind ≠ .crc32)

theorem ChunksBetween.tiles (hb : HeaderBounds header)
    (hat : ChunksBetween bytes header offset records finish) (output : ℕ) :
    OutputTiles output (dataChunks (layout header offset output records))
      (output + totalRecordBlocks records * header.blockSize) := by
  induction records generalizing offset output with
  | nil => simp [layout, dataChunks, OutputTiles]
  | cons r rs ih =>
      have hrest := ih hat.2 (output + r.blocks * header.blockSize)
      have hsum : output + r.blocks * header.blockSize + totalRecordBlocks rs * header.blockSize
          = output + totalRecordBlocks (r :: rs) * header.blockSize := by
        rw [totalRecordBlocks_cons]; ring
      rw [hsum] at hrest
      by_cases hk : r.kind = .crc32
      · have hzero : r.blocks = 0 := by
          have hwf := hat.1.wellFormed
          simp only [ChunkRecord.WellFormed, hk] at hwf
          exact hwf.1
        have hskip : dataChunks (layout header offset output (r :: rs)) = dataChunks (layout header
            (offset + header.chunkHeaderSize + r.payload.length)
            (output + r.blocks * header.blockSize) rs) := by
          simp [dataChunks, layout, toChunk, hk]
        rw [hskip]
        simpa [hzero] using hrest
      · have hkeep : dataChunks (layout header offset output (r :: rs))
            = r.toChunk header offset output :: dataChunks (layout header
              (offset + header.chunkHeaderSize + r.payload.length)
              (output + r.blocks * header.blockSize) rs) := by
          simp [dataChunks, layout, toChunk, hk]
        rw [hkeep]
        exact ⟨rfl, Nat.mul_pos (hat.1.wellFormed.blocks_pos hk) hb.block_pos, hrest⟩

theorem OutputTiles.nonempty {start : ℕ} {chunks : List SparseChunk}
    (h : OutputTiles start chunks finish) : ∀ chunk ∈ chunks, 0 < chunk.outputSize := by
  induction chunks generalizing start with
  | nil => simp
  | cons c cs ih =>
      intro chunk hmem
      rcases List.mem_cons.mp hmem with rfl | hmem
      · exact h.2.1
      · exact ih h.2.2 chunk hmem

/-- **`SparseImage::open` accepts exactly the Android sparse v1 grammar**, and the data chunks of
an accepted image have non-empty output intervals that tile the declared output. -/
theorem openSparseImage_accepts_grammar (h : source.Holds bytes) :
    ((∃ image, openSparseImage source = .ok image) ↔ ∃ records, SparseGrammar bytes records) ∧
      ∀ image, openSparseImage source = .ok image →
        (∀ chunk ∈ image.chunks, chunk.kind ≠ .crc32 →
          chunk.outputOffset < chunk.outputOffset + chunk.outputSize) ∧
        OutputTiles 0 (dataChunks image.chunks) image.outputSize := by
  constructor
  · constructor
    · rintro ⟨image, hok⟩
      obtain ⟨records, g, -⟩ := (openSparseImage_eq_ok_iff h).mp hok
      exact ⟨records, g⟩
    · rintro ⟨records, g⟩
      exact ⟨_, (openSparseImage_eq_ok_iff h).mpr ⟨records, g, rfl⟩⟩
  · intro image hok
    obtain ⟨records, g, rfl⟩ := (openSparseImage_eq_ok_iff h).mp hok
    have htiles := (chunksBetween_length_iff.mpr g.chunks).tiles g.headerBounds 0
    rw [zero_add, g.blocks] at htiles
    refine ⟨fun chunk hmem hk => ?_, htiles⟩
    have := htiles.nonempty chunk (List.mem_filter.mpr ⟨hmem, by simpa using hk⟩)
    omega

/-- A file of one block of data, two filled blocks, one unbacked block and a checksum chunk. -/
def sampleSparseFile : Bytes :=
  leBytes 4 kAndroidSparseMagic ++ leBytes 2 1 ++ leBytes 2 0 ++ leBytes 2 28 ++ leBytes 2 12 ++
    leBytes 4 4 ++ leBytes 4 4 ++ leBytes 4 4 ++ leBytes 4 0 ++
    (leBytes 2 kSparseChunkRaw ++ leBytes 2 0 ++ leBytes 4 1 ++ leBytes 4 16 ++ [1, 2, 3, 4]) ++
    (leBytes 2 kSparseChunkFill ++ leBytes 2 0 ++ leBytes 4 2 ++ leBytes 4 16 ++ [5, 6, 7, 8]) ++
    (leBytes 2 kSparseChunkDontCare ++ leBytes 2 0 ++ leBytes 4 1 ++ leBytes 4 12) ++
    (leBytes 2 kSparseChunkCrc32 ++ leBytes 2 0 ++ leBytes 4 0 ++ leBytes 4 16 ++
      leBytes 4 (crc32 [1, 2, 3, 4, 5, 6, 7, 8, 5, 6, 7, 8, 0, 0, 0, 0]).toNat)

theorem sampleSparseFile_accepted : ∃ records, SparseGrammar sampleSparseFile records := by
  have hholds := ImageSource.holds_ofBytes sampleSparseFile (by decide +kernel)
  refine (openSparseImage_accepts_grammar hholds).1.mp ?_
  have hok : (openSparseImage (ImageSource.ofBytes sampleSparseFile (by decide +kernel))).isOk
      = true := by decide +kernel
  cases h : openSparseImage (ImageSource.ofBytes sampleSparseFile (by decide +kernel)) with
  | error e => rw [h] at hok; cases hok
  | ok image => exact ⟨image, rfl⟩

end

end KairosBoot
