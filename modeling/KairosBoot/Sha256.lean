import KairosBoot.ImageSource

/-! # SHA-256

`Sha256State`, `Sha256Accumulator` and `compute_sha256` of `sha256.cpp`.  The block buffer is the
list of its buffered bytes: bytes of the array past `buffered_` are never read.  A schedule is
kept newest word first, so that `schedule[index - k]` is its element `k - 1`.

The metadata formats store digests in fields of 32 bytes, and all they need of the digest is that
it fits (`length_sha256`). -/

namespace KairosBoot

open ByteLib

def kSha256DigestSize : ℕ := 32
def kSha256BlockSize : ℕ := 64
def kSha256SourceReadSize : ℕ := 64 * 1024
def kSha256MaxInputSize : ℕ := uint64Max / 8

def kRoundConstants : List (BitVec 32) :=
  [0x428a2f98, 0x71374491, 0xb5c0fbcf, 0xe9b5dba5, 0x3956c25b, 0x59f111f1, 0x923f82a4, 0xab1c5ed5,
   0xd807aa98, 0x12835b01, 0x243185be, 0x550c7dc3, 0x72be5d74, 0x80deb1fe, 0x9bdc06a7, 0xc19bf174,
   0xe49b69c1, 0xefbe4786, 0x0fc19dc6, 0x240ca1cc, 0x2de92c6f, 0x4a7484aa, 0x5cb0a9dc, 0x76f988da,
   0x983e5152, 0xa831c66d, 0xb00327c8, 0xbf597fc7, 0xc6e00bf3, 0xd5a79147, 0x06ca6351, 0x14292967,
   0x27b70a85, 0x2e1b2138, 0x4d2c6dfc, 0x53380d13, 0x650a7354, 0x766a0abb, 0x81c2c92e, 0x92722c85,
   0xa2bfe8a1, 0xa81a664b, 0xc24b8b70, 0xc76c51a3, 0xd192e819, 0xd6990624, 0xf40e3585, 0x106aa070,
   0x19a4c116, 0x1e376c08, 0x2748774c, 0x34b0bcb5, 0x391c0cb3, 0x4ed8aa4a, 0x5b9cca4f, 0x682e6ff3,
   0x748f82ee, 0x78a5636f, 0x84c87814, 0x8cc70208, 0x90befffa, 0xa4506ceb, 0xbef9a3f7, 0xc67178f2]

/-! ### The compression function -/

/-- The eight words of the hash state. -/
structure HashWords where
  a : BitVec 32
  b : BitVec 32
  c : BitVec 32
  d : BitVec 32
  e : BitVec 32
  f : BitVec 32
  g : BitVec 32
  h : BitVec 32
  deriving DecidableEq, Repr

def initialWords : HashWords :=
  ⟨0x6a09e667, 0xbb67ae85, 0x3c6ef372, 0xa54ff53a, 0x510e527f, 0x9b05688c, 0x1f83d9ab, 0x5be0cd19⟩

/-- `load_big_endian_u32`. -/
def loadBigEndianU32 (bytes : Bytes) : BitVec 32 :=
  BitVec.ofNat 32 (bytes.foldl (fun word byte => word * 256 + byte.toNat) 0)

/-- The next word of a schedule that is given newest word first. -/
def nextScheduleWord (schedule : List (BitVec 32)) : BitVec 32 :=
  let back := fun k => schedule.getD (k - 1) 0
  let sigma0 := (back 15).rotateRight 7 ^^^ (back 15).rotateRight 18 ^^^ (back 15) >>> 3
  let sigma1 := (back 2).rotateRight 17 ^^^ (back 2).rotateRight 19 ^^^ (back 2) >>> 10
  back 16 + sigma0 + back 7 + sigma1

def extendSchedule : ℕ → List (BitVec 32) → List (BitVec 32)
  | 0, schedule => schedule
  | n + 1, schedule => extendSchedule n (nextScheduleWord schedule :: schedule)

/-- The message schedule of a block, oldest word first. -/
def messageSchedule (block : Bytes) : List (BitVec 32) :=
  let words := (List.range 16).map fun index => loadBigEndianU32 (slice block (4 * index) 4)
  (extendSchedule 48 words.reverse).reverse

/-- One round with its constant and its schedule word. -/
def hashRound (w : HashWords) (input : BitVec 32 × BitVec 32) : HashWords :=
  let sum1 := w.e.rotateRight 6 ^^^ w.e.rotateRight 11 ^^^ w.e.rotateRight 25
  let choice := (w.e &&& w.f) ^^^ (~~~w.e &&& w.g)
  let temporary1 := w.h + sum1 + choice + input.1 + input.2
  let sum0 := w.a.rotateRight 2 ^^^ w.a.rotateRight 13 ^^^ w.a.rotateRight 22
  let majority := (w.a &&& w.b) ^^^ (w.a &&& w.c) ^^^ (w.b &&& w.c)
  let temporary2 := sum0 + majority
  ⟨temporary1 + temporary2, w.a, w.b, w.c, w.d + temporary1, w.e, w.f, w.g⟩

/-- `Sha256State::transform`. -/
def sha256Transform (state : HashWords) (block : Bytes) : HashWords :=
  let w := (kRoundConstants.zip (messageSchedule block)).foldl hashRound state
  ⟨state.a + w.a, state.b + w.b, state.c + w.c, state.d + w.d,
   state.e + w.e, state.f + w.f, state.g + w.g, state.h + w.h⟩

/-! ### The accumulator -/

structure Sha256State where
  state : HashWords
  buffer : Bytes
  totalBytes : ℕ
  deriving DecidableEq, Repr

def Sha256State.initial : Sha256State := ⟨initialWords, [], 0⟩

/-- The loop over the whole blocks of `bytes`, and what remains after them. -/
def transformBlocks : ℕ → HashWords → Bytes → HashWords × Bytes
  | 0, state, bytes => (state, bytes)
  | fuel + 1, state, bytes =>
      if kSha256BlockSize ≤ bytes.length then
        transformBlocks fuel (sha256Transform state (bytes.take kSha256BlockSize))
          (bytes.drop kSha256BlockSize)
      else (state, bytes)

/-- `Sha256State::update`. -/
def Sha256State.update (s : Sha256State) (bytes : Bytes) : Sha256State :=
  let totalBytes := (s.totalBytes + bytes.length) % 2 ^ 64
  -- a started block is completed first, and is kept if it stays incomplete
  let amount := if s.buffer = [] then 0 else min (kSha256BlockSize - s.buffer.length) bytes.length
  let buffer := s.buffer ++ bytes.take amount
  if buffer ≠ [] ∧ buffer.length < kSha256BlockSize then
    { s with buffer := buffer, totalBytes := totalBytes }
  else
    let state := if buffer = [] then s.state else sha256Transform s.state buffer
    let rest := bytes.drop amount
    let (state, remaining) := transformBlocks rest.length state rest
    ⟨state, remaining, totalBytes⟩

def bigEndianBytes (n value : ℕ) : Bytes := (leBytes n value).reverse

/-- The state words after the padding of `Sha256State::finish`. -/
def Sha256State.pad (s : Sha256State) : HashWords :=
  let lengthBytes := bigEndianBytes 8 (s.totalBytes * 8)
  let buffer := s.buffer ++ [0x80]
  if 56 < buffer.length then
    sha256Transform
      (sha256Transform s.state (buffer ++ List.replicate (kSha256BlockSize - buffer.length) 0))
      (List.replicate 56 0 ++ lengthBytes)
  else
    sha256Transform s.state (buffer ++ List.replicate (56 - buffer.length) 0 ++ lengthBytes)

def HashWords.toBytes (w : HashWords) : Bytes :=
  [w.a, w.b, w.c, w.d, w.e, w.f, w.g, w.h].flatMap fun word => bigEndianBytes 4 word.toNat

/-- `Sha256State::finish`. -/
def Sha256State.finish (s : Sha256State) : Bytes := s.pad.toBytes

/-- `digest_bytes` and `digest`: the digest of bytes given at once. -/
def sha256 (bytes : Bytes) : Bytes := (Sha256State.initial.update bytes).finish

/-! ### Hashing a source -/

inductive Sha256ErrorKind where
  | invalidSize | source | truncated | cancelled
  deriving DecidableEq, Repr

structure Sha256Error where
  kind : Sha256ErrorKind
  inputOffset : ℕ
  message : String
  deriving DecidableEq, Repr

/-- The text of a failed read, with the source's own message if it has one. -/
def unreadableMessage (message : String) : String :=
  if message = "" then "unable to read image source"
  else "unable to read image source: " ++ message

/-- The reading loop of `compute_sha256`; every round advances, so `fuel` is the size. -/
def hashSource (source : ImageSource) : ℕ → ℕ → Sha256State → Except Sha256Error Sha256State
  | 0, _, state => .ok state
  | fuel + 1, offset, state =>
      if offset < source.size then
        let requested := min (source.size - offset) kSha256SourceReadSize
        match source.readAt offset requested with
        | .error e => .error ⟨.source, offset, unreadableMessage e.message⟩
        | .ok bytes =>
            if requested < bytes.length then
              .error ⟨.source, offset, "image source returned more bytes than requested"⟩
            else if bytes.length = 0 then
              .error ⟨.truncated, offset, "image source made no progress before its declared size"⟩
            else hashSource source fuel (offset + bytes.length) (state.update bytes)
      else .ok state

/-- `compute_sha256`. -/
def computeSha256 (source : ImageSource) : Except Sha256Error Bytes :=
  if kSha256MaxInputSize < source.size then
    .error ⟨.invalidSize, 0, "image source is too large for SHA-256"⟩
  else (hashSource source source.size 0 Sha256State.initial).map Sha256State.finish

@[simp] theorem length_bigEndianBytes (n value : ℕ) : (bigEndianBytes n value).length = n := by
  simp [bigEndianBytes]

@[simp] theorem length_sha256 (bytes : Bytes) : (sha256 bytes).length = 32 := by
  simp [sha256, Sha256State.finish, HashWords.toBytes]

/-- A source is hashed in parts, as short as its reads are. -/
theorem hashSource_eq {source : ImageSource} {bytes : Bytes} (h : source.Holds bytes)
    {fuel offset : ℕ} (hle : offset ≤ bytes.length) (hfuel : bytes.length - offset ≤ fuel)
    (state : Sha256State) : ∃ chunks : List Bytes, chunks.flatten = bytes.drop offset ∧
      hashSource source fuel offset state = .ok (chunks.foldl Sha256State.update state) := by
  induction fuel generalizing offset state with
  | zero => exact ⟨[], by rw [List.drop_of_length_le (by omega)]; rfl, rfl⟩
  | succ fuel ih =>
      rw [hashSource, h.size_eq]
      split
      next hlt =>
        obtain ⟨n, hpos, hn, hread⟩ := h.serves offset
          (min (bytes.length - offset) kSha256SourceReadSize)
          (Nat.lt_min.mpr ⟨by omega, by decide⟩) (by omega)
        have hlen : (slice bytes offset n).length = n := length_slice (by omega)
        obtain ⟨chunks, hchks, hrest⟩ := @ih (offset + n) (by omega) (by omega)
          (state.update (slice bytes offset n))
        refine ⟨slice bytes offset n :: chunks, ?_, ?_⟩
        · rw [List.flatten_cons, hchks, ← List.drop_drop]
          exact List.take_append_drop n _
        · simp only [hread, hlen]
          rw [if_neg (by omega), if_neg (by omega), hrest]
          rfl
      next => exact ⟨[], by rw [List.drop_of_length_le (by omega)]; rfl, rfl⟩

/-- A source whose reads succeed has the digest of its bytes, given in parts. -/
theorem computeSha256_eq {source : ImageSource} {bytes : Bytes} (h : source.Holds bytes)
    (hsize : bytes.length ≤ kSha256MaxInputSize) :
    ∃ chunks : List Bytes, chunks.flatten = bytes ∧
      computeSha256 source = .ok (chunks.foldl Sha256State.update Sha256State.initial).finish := by
  obtain ⟨chunks, hchks, hhash⟩ := hashSource_eq h (Nat.zero_le _) (le_refl _) Sha256State.initial
  rw [Nat.sub_zero, ← h.size_eq] at hhash
  refine ⟨chunks, hchks, ?_⟩
  rw [computeSha256, if_neg (by rw [h.size_eq]; omega), hhash]
  rfl

end KairosBoot
