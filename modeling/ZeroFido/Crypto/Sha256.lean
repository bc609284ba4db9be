import Mathlib.Tactic.Ring
import ZeroFido.Foundations.Sha256
import ZeroFido.Memory

/-!
# The SHA-256 code

`crypto/sha256.c`: a context takes up a message piece by piece in a buffer of one block, and the end
of the message is padded through the same buffer.

`Holds` says what a context has taken up. Every update appends to it, and the end gives the digest
of FIPS 180-4 (`sha256_pieces`), whatever the pieces were.
-/

set_option autoImplicit false
set_option relaxedAutoImplicit false

namespace ZeroFido.Hash

open Foundations Foundations.Der Foundations.Sha256 Cbor

section Code

/-- `zf_sha256_k`. -/
def sha256K : List UInt32 := [
  0x428A2F98, 0x71374491, 0xB5C0FBCF, 0xE9B5DBA5, 0x3956C25B, 0x59F111F1,
  0x923F82A4, 0xAB1C5ED5, 0xD807AA98, 0x12835B01, 0x243185BE, 0x550C7DC3,
  0x72BE5D74, 0x80DEB1FE, 0x9BDC06A7, 0xC19BF174, 0xE49B69C1, 0xEFBE4786,
  0x0FC19DC6, 0x240CA1CC, 0x2DE92C6F, 0x4A7484AA, 0x5CB0A9DC, 0x76F988DA,
  0x983E5152, 0xA831C66D, 0xB00327C8, 0xBF597FC7, 0xC6E00BF3, 0xD5A79147,
  0x06CA6351, 0x14292967, 0x27B70A85, 0x2E1B2138, 0x4D2C6DFC, 0x53380D13,
  0x650A7354, 0x766A0ABB, 0x81C2C92E, 0x92722C85, 0xA2BFE8A1, 0xA81A664B,
  0xC24B8B70, 0xC76C51A3, 0xD192E819, 0xD6990624, 0xF40E3585, 0x106AA070,
  0x19A4C116, 0x1E376C08, 0x2748774C, 0x34B0BCB5, 0x391C0CB3, 0x4ED8AA4A,
  0x5B9CCA4F, 0x682E6FF3, 0x748F82EE, 0x78A5636F, 0x84C87814, 0x8CC70208,
  0x90BEFFFA, 0xA4506CEB, 0xBEF9A3F7, 0xC67178F2]

/-- `zf_sha256_rotr`. -/
def sha256Rotr (value shift : UInt32) : UInt32 := (value >>> shift) ||| (value <<< (32 - shift))

/-- `zf_sha256_load_be32`. -/
def sha256LoadBe32 (data : Bytes) : UInt32 :=
  ((data.getD 0 0).toUInt32 <<< 24) ||| ((data.getD 1 0).toUInt32 <<< 16) |||
    ((data.getD 2 0).toUInt32 <<< 8) ||| (data.getD 3 0).toUInt32

/-- `zf_sha256_store_be32`. -/
def sha256StoreBe32 (value : UInt32) : Bytes :=
  [(value >>> 24).toUInt8, (value >>> 16).toUInt8, (value >>> 8).toUInt8, value.toUInt8]

/-- `zf_sha256_store_be64`. -/
def sha256StoreBe64 (value : UInt64) : Bytes :=
  (List.range 8).map fun i ↦ (value >>> UInt64.ofNat (56 - i * 8)).toUInt8

/-- The word `i` of the second loop of `zf_sha256_transform`, behind those before it. -/
def sha256NextWord (w : List UInt32) (i : ℕ) : List UInt32 :=
  let s0 := sha256Rotr (w.getD (i - 15) 0) 7 ^^^ sha256Rotr (w.getD (i - 15) 0) 18 ^^^
    (w.getD (i - 15) 0 >>> 3)
  let s1 := sha256Rotr (w.getD (i - 2) 0) 17 ^^^ sha256Rotr (w.getD (i - 2) 0) 19 ^^^
    (w.getD (i - 2) 0 >>> 10)
  w ++ [w.getD (i - 16) 0 + s0 + w.getD (i - 7) 0 + s1]

/-- The array `w` of `zf_sha256_transform`. -/
def sha256Words (block : Bytes) : List UInt32 :=
  (List.range' 16 48).foldl sha256NextWord
    ((List.range 16).map fun i ↦ sha256LoadBe32 (block.drop (i * 4)))

/-- The third loop of `zf_sha256_transform`; the variables `a` to `h` are the fields. -/
def sha256Round (w : List UInt32) (v : HashValue) (i : ℕ) : HashValue :=
  let s1 := sha256Rotr v.e 6 ^^^ sha256Rotr v.e 11 ^^^ sha256Rotr v.e 25
  let ch := (v.e &&& v.f) ^^^ (~~~v.e &&& v.g)
  let temp1 := v.h + s1 + ch + sha256K.getD i 0 + w.getD i 0
  let s0 := sha256Rotr v.a 2 ^^^ sha256Rotr v.a 13 ^^^ sha256Rotr v.a 22
  let maj := (v.a &&& v.b) ^^^ (v.a &&& v.c) ^^^ (v.b &&& v.c)
  let temp2 := s0 + maj
  { h := v.g, g := v.f, f := v.e, e := v.d + temp1, d := v.c, c := v.b, b := v.a
    a := temp1 + temp2 }

/-- `zf_sha256_transform`, on the words of the context's `state`. -/
def sha256Transform (state : HashValue) (block : Bytes) : HashValue :=
  state.add ((List.range 64).foldl (sha256Round (sha256Words block)) state)

/-- `ZfSha256Context`. Between the calls its buffer is never full. -/
structure Sha256Context where
  state : HashValue
  bitCount : UInt64
  buffer : ℕ → UInt8
  bufferLen : ℕ
  bufferLen_lt : bufferLen < 64

/-- `zf_sha256_init`. -/
def sha256Init : Sha256Context where
  state := {
    a := 0x6A09E667, b := 0xBB67AE85, c := 0x3C6EF372, d := 0xA54FF53A
    e := 0x510E527F, f := 0x9B05688C, g := 0x1F83D9AB, h := 0x5BE0CD19 }
  bitCount := 0
  buffer := fun _ ↦ 0
  bufferLen := 0
  bufferLen_lt := by decide

/-- The loop of `zf_sha256_update`. -/
def sha256Fill (ctx : Sha256Context) (data : Bytes) : Sha256Context :=
  if data.length = 0 then ctx
  else
    let chunk := min (64 - ctx.bufferLen) data.length
    let buffer := memcpy ctx.buffer ctx.bufferLen (data.take chunk)
    if hfull : ctx.bufferLen + chunk = 64 then
      sha256Fill { ctx with
        state := sha256Transform ctx.state (readMemory buffer 0 64)
        buffer
        bufferLen := 0
        bufferLen_lt := by decide } (data.drop chunk)
    else
      sha256Fill { ctx with
        buffer
        bufferLen := ctx.bufferLen + chunk
        bufferLen_lt := by
          have hlt := ctx.bufferLen_lt
          omega } (data.drop chunk)
termination_by data.length
decreasing_by
  all_goals
    have hlt := ctx.bufferLen_lt
    rw [List.length_drop]
    omega

/-- `zf_sha256_update`. -/
def sha256Update (ctx : Sha256Context) (data : Bytes) : Sha256Context :=
  sha256Fill { ctx with bitCount := ctx.bitCount + UInt64.ofNat data.length * 8 } data

/-- `zf_sha256_finish`. -/
def sha256Finish (ctx : Sha256Context) : Bytes :=
  let messageBits := ctx.bitCount
  let tail : Bytes := 0x80 :: List.replicate 63 0
  let (ctx, tail) :=
    if 55 < ctx.bufferLen then
      (sha256Update ctx (tail.take (64 - ctx.bufferLen)), List.replicate 64 0)
    else (ctx, tail)
  let ctx := sha256Update ctx (tail.take (56 - ctx.bufferLen))
  let buffer := memcpy ctx.buffer 56 (sha256StoreBe64 messageBits)
  let state := sha256Transform ctx.state (readMemory buffer 0 64)
  state.words.flatMap sha256StoreBe32

end Code

section Words

/-- Bits that do not overlap are added. -/
theorem mul_pow_or {high low count : ℕ} (h : low < 2 ^ count) :
    high * 2 ^ count ||| low = high * 2 ^ count + low := by
  rw [← Nat.shiftLeft_eq, Nat.shiftLeft_add_eq_or_of_lt h]

theorem sha256LoadBe32_eq {data : Bytes} (h : 4 ≤ data.length) :
    sha256LoadBe32 data = UInt32.ofNat (valueOf (data.take 4)) := by
  obtain _ | ⟨a, _ | ⟨b, _ | ⟨c, _ | ⟨d, rest⟩⟩⟩⟩ := data
  · simp at h
  · simp at h
  · simp at h
  · simp at h
  have ha := a.toNat_lt
  have hb := b.toNat_lt
  have hc := c.toNat_lt
  have hd := d.toNat_lt
  have htop : a.toNat * 2 ^ 24 ||| b.toNat * 2 ^ 16 = (a.toNat * 256 + b.toNat) * 2 ^ 16 := by
    rw [mul_pow_or (by omega)]
    ring
  have hmiddle : (a.toNat * 256 + b.toNat) * 2 ^ 16 ||| c.toNat * 2 ^ 8 =
      (a.toNat * 65536 + b.toNat * 256 + c.toNat) * 2 ^ 8 := by
    rw [mul_pow_or (by omega)]
    ring
  have hall : (a.toNat * 65536 + b.toNat * 256 + c.toNat) * 2 ^ 8 ||| d.toNat =
      (a.toNat * 65536 + b.toNat * 256 + c.toNat) * 2 ^ 8 + d.toNat := mul_pow_or hd
  have hvalue : valueOf [a, b, c, d] =
      (a.toNat * 65536 + b.toNat * 256 + c.toNat) * 2 ^ 8 + d.toNat := by
    simp only [valueOf, List.foldl_cons, List.foldl_nil]
    ring
  rw [← UInt32.toNat_inj, List.take_succ_cons, List.take_succ_cons, List.take_succ_cons,
    List.take_succ_cons, List.take_zero, hvalue, ← hall, ← hmiddle, ← htop]
  simp only [sha256LoadBe32, List.getD_cons_zero, List.getD_cons_succ, UInt32.toNat_or,
    UInt32.toNat_shiftLeft, UInt8.toNat_toUInt32, UInt32.toNat_ofNat', Nat.shiftLeft_eq]
  rw [Nat.or_mod_two_pow, Nat.or_mod_two_pow, Nat.or_mod_two_pow,
    Nat.mod_eq_of_lt (hd.trans (by decide) : d.toNat < 2 ^ 32)]
  rfl

theorem sha256StoreBe32_eq (value : UInt32) :
    sha256StoreBe32 value = bigEndian 4 value.toNat := by
  simp [sha256StoreBe32, bigEndian, ← UInt8.toNat_inj, Nat.shiftRight_eq_div_pow,
    Nat.div_div_eq_div_mul]

theorem sha256StoreBe64_eq (value : UInt64) :
    sha256StoreBe64 value = bigEndian 8 value.toNat := by
  simp [sha256StoreBe64, bigEndian, List.range_succ, ← UInt8.toNat_inj, Nat.shiftRight_eq_div_pow,
    Nat.div_div_eq_div_mul]

theorem bigEndian_mod (width value : ℕ) :
    bigEndian width (value % 256 ^ width) = bigEndian width value := by
  induction width generalizing value with
  | zero => rfl
  | succ width ih =>
    have hlast : UInt8.ofNat (value % 256 ^ (width + 1)) = UInt8.ofNat value := by
      rw [← UInt8.toNat_inj, UInt8.toNat_ofNat', UInt8.toNat_ofNat', pow_succ',
        Nat.mod_mul_right_mod]
    rw [bigEndian, hlast, pow_succ', Nat.mod_mul_right_div_self, ih, bigEndian]

end Words

section Transform

variable {block : Bytes}

theorem sha256NextWord_eq (w : List UInt32) (i : ℕ) : sha256NextWord w i =
    w ++ [w.getD (i - 16) 0 + smallSigma0 (w.getD (i - 15) 0) + w.getD (i - 7) 0 +
      smallSigma1 (w.getD (i - 2) 0)] := rfl

/-- The array has the schedule. -/
theorem sha256Words_eq (hblock : block.length = 64) :
    sha256Words block = (List.range 64).map (schedule block) := by
  have hfirst : ((List.range 16).map fun i ↦ sha256LoadBe32 (block.drop (i * 4))) =
      (List.range 16).map (schedule block) := by
    refine List.map_congr_left fun i hi ↦ ?_
    have hi := List.mem_range.mp hi
    rw [schedule_of_lt hi, blockWord, Nat.mul_comm 4, sha256LoadBe32_eq]
    rw [List.length_drop]
    omega
  -- After `count` steps of the loop the words up to `16 + count` are there.
  have hloop : ∀ count, (List.range' 16 count).foldl sha256NextWord
      ((List.range 16).map (schedule block)) = (List.range (16 + count)).map (schedule block) := by
    intro count
    induction count with
    | zero => rfl
    | succ count ih =>
      have hword : ∀ back ≤ 16, 0 < back →
          ((List.range (16 + count)).map (schedule block)).getD (16 + count - back) 0 =
            schedule block (16 + count - back) := by
        intro back hle hpos
        have hlt : 16 + count - back < 16 + count := by omega
        simp [List.getD_eq_getElem?_getD, hlt]
      rw [List.range'_concat, List.foldl_append, ih, List.foldl_cons, List.foldl_nil, one_mul,
        sha256NextWord_eq, hword 15 (by decide) (by decide), hword 2 (by decide) (by decide),
        hword 16 le_rfl (by decide), hword 7 (by decide) (by decide), ← Nat.add_assoc,
        List.range_succ, List.map_append, List.map_singleton,
        schedule_of_le (Nat.le_add_right 16 count)]
      congr 2
      ac_rfl
  rw [sha256Words, hfirst, hloop]

theorem sha256K_eq {index : ℕ} (h : index < 64) :
    sha256K.getD index 0 = roundConstant index := by
  have hroots : ∀ index < 64, ∃ whole < 7,
      (whole * 2 ^ 32 + (sha256K.getD index 0).toNat) ^ 3 ≤ firstPrimes.getD index 0 * 2 ^ 96 ∧
        firstPrimes.getD index 0 * 2 ^ 96 <
          (whole * 2 ^ 32 + (sha256K.getD index 0).toNat + 1) ^ 3 := by decide +kernel
  obtain ⟨whole, -, hle, hlt⟩ := hroots index h
  exact (roundConstant_eq h hle hlt).symm

theorem sha256Init_state : sha256Init.state = initial := by
  have hroots : ∀ index < 8, ∃ whole < 5,
      (whole * 2 ^ 32 + (sha256Init.state.words.getD index 0).toNat) ^ 2 ≤
          firstPrimes.getD index 0 * 2 ^ 64 ∧
        firstPrimes.getD index 0 * 2 ^ 64 <
          (whole * 2 ^ 32 + (sha256Init.state.words.getD index 0).toNat + 1) ^ 2 := by
    decide +kernel
  have hword : ∀ index < 8, sha256Init.state.words.getD index 0 = initialWord index := by
    intro index hindex
    obtain ⟨whole, -, hle, hlt⟩ := hroots index hindex
    exact (initialWord_eq (hindex.trans (by decide)) hle hlt).symm
  rw [initial, ← hword 0 (by decide), ← hword 1 (by decide), ← hword 2 (by decide),
    ← hword 3 (by decide), ← hword 4 (by decide), ← hword 5 (by decide), ← hword 6 (by decide),
    ← hword 7 (by decide)]
  rfl

/-- The transform is the compression of a block. -/
theorem sha256Transform_eq (hblock : block.length = 64) (value : HashValue) :
    sha256Transform value block = compress value block := by
  have hrounds : ∀ count ≤ 64, (List.range count).foldl (sha256Round (sha256Words block)) value =
      rounds block value count := by
    intro count hcount
    induction count with
    | zero => rfl
    | succ count ih =>
      have hlt : count < 64 := by omega
      have hword : (sha256Words block).getD count 0 = schedule block count := by
        rw [sha256Words_eq hblock]
        simp [List.getD_eq_getElem?_getD, hlt]
      rw [List.range_succ, List.foldl_append, ih (by omega), List.foldl_cons, List.foldl_nil,
        sha256Round, sha256K_eq hlt, hword]
      rfl
  rw [sha256Transform, hrounds 64 le_rfl]
  rfl

end Transform

section Streaming

/-- What the buffer holds of the message. -/
def Sha256Context.buffered (ctx : Sha256Context) : Bytes := readMemory ctx.buffer 0 ctx.bufferLen

/-- The context has taken up this message. -/
structure Sha256Context.Holds (ctx : Sha256Context) (message : Bytes) : Prop where
  absorbed : (ctx.state, ctx.buffered) = absorb 64 compress initial message
  bitCount : ctx.bitCount = UInt64.ofNat (8 * message.length)

variable {ctx : Sha256Context} {message data : Bytes}

@[simp]
theorem length_buffered (ctx : Sha256Context) : ctx.buffered.length = ctx.bufferLen :=
  length_readMemory _ _ _

/-- What is copied to the end of the buffered part is appended to it. -/
theorem readMemory_append_memcpy (buffer : ℕ → UInt8) (length : ℕ) (data : Bytes) :
    readMemory (memcpy buffer length data) 0 (length + data.length) =
      readMemory buffer 0 length ++ data := by
  rw [readMemory_append, readMemory_memcpy_of_disjoint (Or.inl (by omega)), Nat.zero_add,
    readMemory_memcpy]

/-- What the loop copies into the buffer. -/
theorem readMemory_append_chunk (ctx : Sha256Context) (data : Bytes) :
    readMemory
        (memcpy ctx.buffer ctx.bufferLen (data.take (min (64 - ctx.bufferLen) data.length))) 0
        (ctx.bufferLen + min (64 - ctx.bufferLen) data.length) =
      ctx.buffered ++ data.take (min (64 - ctx.bufferLen) data.length) := by
  have hcopied := readMemory_append_memcpy ctx.buffer ctx.bufferLen
    (data.take (min (64 - ctx.bufferLen) data.length))
  rwa [List.length_take, Nat.min_assoc, Nat.min_self] at hcopied

/-- The loop compresses the whole blocks of what is buffered and what is new. -/
theorem sha256Fill_absorb (ctx : Sha256Context) (data : Bytes) :
    ((sha256Fill ctx data).state, (sha256Fill ctx data).buffered) =
        absorb 64 compress ctx.state (ctx.buffered ++ data) ∧
      (sha256Fill ctx data).bitCount = ctx.bitCount := by
  induction ctx, data using sha256Fill.induct with
  | case1 ctx data hnone =>
    rw [sha256Fill, if_pos hnone, List.eq_nil_of_length_eq_zero hnone, List.append_nil,
      absorb_of_lt (by rw [length_buffered]; exact ctx.bufferLen_lt)]
    exact ⟨rfl, rfl⟩
  | case2 ctx data hsome chunk buffer hfull ih =>
    have hblock := readMemory_append_chunk ctx data
    have hlength : (ctx.buffered ++ data.take chunk).length = 64 := by
      rw [← hblock, length_readMemory, hfull]
    rw [hfull] at hblock
    rw [sha256Fill, if_neg hsome, dif_pos hfull]
    refine ⟨ih.1.trans ?_, ih.2⟩
    rw [hblock, sha256Transform_eq hlength, ← List.take_append_drop chunk data,
      ← List.append_assoc, absorb_block_append (by decide) hlength, List.take_append_drop]
    rfl
  | case3 ctx data hsome chunk buffer hfull ih =>
    have hpart := readMemory_append_chunk ctx data
    rw [sha256Fill, if_neg hsome, dif_neg hfull]
    refine ⟨ih.1.trans ?_, ih.2⟩
    rw [Sha256Context.buffered, hpart, List.append_assoc, List.take_append_drop]

/-- An update appends to what the context has taken up. -/
theorem Sha256Context.Holds.update (h : ctx.Holds message) (data : Bytes) :
    (sha256Update ctx data).Holds (message ++ data) := by
  obtain ⟨habsorbed, hbitCount⟩ := sha256Fill_absorb
    { ctx with bitCount := ctx.bitCount + UInt64.ofNat data.length * 8 } data
  refine ⟨habsorbed.trans ?_, hbitCount.trans ?_⟩
  · rw [absorb_append initial, ← h.absorbed]
    rfl
  · change ctx.bitCount + UInt64.ofNat data.length * 8 = _
    rw [h.bitCount, List.length_append, Nat.mul_add, UInt64.ofNat_add, Nat.mul_comm 8 data.length,
      UInt64.ofNat_mul data.length]
    rfl

theorem holds_sha256Init : sha256Init.Holds [] := by
  refine ⟨?_, rfl⟩
  rw [absorb_of_lt (by decide), ← sha256Init_state]
  rfl

/-- A context that was fed in pieces has taken up all of them. -/
theorem Sha256Context.Holds.updates (h : ctx.Holds message) (pieces : List Bytes) :
    (pieces.foldl sha256Update ctx).Holds (message ++ pieces.flatten) := by
  induction pieces generalizing ctx message with
  | nil =>
    rw [List.flatten_nil, List.append_nil]
    exact h
  | cons piece pieces ih =>
    rw [List.foldl_cons, List.flatten_cons, ← List.append_assoc]
    exact ih (h.update piece)

theorem Sha256Context.Holds.bufferLen (h : ctx.Holds message) :
    ctx.bufferLen = message.length % 64 := by
  rw [← length_buffered, (Prod.mk.inj h.absorbed).2, length_absorb (by decide)]

/-- What is written behind 56 buffered bytes completes the last block. -/
theorem Sha256Context.Holds.last (h : ctx.Holds message) (hlength : message.length % 64 = 56)
    {bits : Bytes} (hbits : bits.length = 8) :
    sha256Transform ctx.state (readMemory (memcpy ctx.buffer 56 bits) 0 64) =
      (absorb 64 compress initial (message ++ bits)).1 := by
  have hfilled : ctx.bufferLen = 56 := h.bufferLen.trans hlength
  have hblock : readMemory (memcpy ctx.buffer 56 bits) 0 64 = ctx.buffered ++ bits := by
    rw [Sha256Context.buffered, hfilled, ← readMemory_append_memcpy, hbits]
  have hsize : (ctx.buffered ++ bits).length = 64 := by
    rw [List.length_append, length_buffered, hfilled, hbits]
  rw [hblock, sha256Transform_eq hsize, absorb_append, ← h.absorbed, absorb_block (by decide) hsize]

/-- The padding goes through the buffer in one piece or in two. -/
theorem sha256Finish_eq (h : ctx.Holds message) : sha256Finish ctx = Sha256.hash message := by
  have hbits : sha256StoreBe64 ctx.bitCount = bigEndian 8 (8 * message.length) := by
    rw [sha256StoreBe64_eq, h.bitCount, UInt64.toNat_ofNat',
      (by decide : (2 : ℕ) ^ 64 = 256 ^ 8), bigEndian_mod]
  -- A context that has taken up the message with its one bit and its zeros is ready for the length.
  have hready : ∀ padded : Sha256Context,
      padded.Holds (message ++ 0x80 :: List.replicate (zeroCount message.length) 0) →
      (sha256Transform padded.state (readMemory
          (memcpy padded.buffer 56 (sha256StoreBe64 ctx.bitCount)) 0 64)).words.flatMap
        sha256StoreBe32 = Sha256.hash message := by
    intro padded hpadded
    have hlength : (message ++ 0x80 :: List.replicate (zeroCount message.length) 0).length % 64 =
        56 := by
      rw [List.length_append, List.length_cons, List.length_replicate, zeroCount]
      omega
    rw [hpadded.last hlength (by rw [hbits]; exact length_bigEndian _ _), hbits]
    simp only [Sha256.hash, HashValue.bytes, pad, funext sha256StoreBe32_eq]
  unfold sha256Finish
  by_cases hlong : 55 < ctx.bufferLen
  · simp only [if_pos hlong]
    refine hready _ ?_
    have hfilled := h.bufferLen
    have hlt := ctx.bufferLen_lt
    have hhead : (0x80 :: List.replicate 63 0 : Bytes).take (64 - ctx.bufferLen) =
        0x80 :: List.replicate (63 - ctx.bufferLen) 0 := by
      have hmin : min (63 - ctx.bufferLen) 63 = 63 - ctx.bufferLen := by omega
      rw [(by omega : 64 - ctx.bufferLen = 63 - ctx.bufferLen + 1), List.take_succ_cons,
        List.take_replicate, hmin]
    rw [hhead]
    have hfirst := h.update (0x80 :: List.replicate (63 - ctx.bufferLen) 0)
    have hempty : (sha256Update ctx
        (0x80 :: List.replicate (63 - ctx.bufferLen) 0)).bufferLen = 0 := by
      rw [hfirst.bufferLen, List.length_append, List.length_cons, List.length_replicate]
      omega
    have hzeros : 63 - ctx.bufferLen + 56 = zeroCount message.length := by
      rw [zeroCount]
      omega
    have hpadded := hfirst.update (List.replicate 56 0)
    rw [List.append_assoc, List.cons_append, List.replicate_append_replicate, hzeros] at hpadded
    rw [hempty]
    exact hpadded
  · simp only [if_neg hlong]
    refine hready _ ?_
    have hfilled := h.bufferLen
    have htail : (0x80 :: List.replicate 63 0 : Bytes).take (56 - ctx.bufferLen) =
        0x80 :: List.replicate (zeroCount message.length) 0 := by
      have hzeros : 56 - ctx.bufferLen = zeroCount message.length + 1 := by
        rw [zeroCount]
        omega
      have hmin : min (zeroCount message.length) 63 = zeroCount message.length := by
        omega
      rw [hzeros, List.take_succ_cons, List.take_replicate, hmin]
    rw [htail]
    exact h.update _

/-- The digest of a message does not depend on the pieces in which it comes. -/
theorem sha256_pieces (pieces : List Bytes) :
    sha256Finish (pieces.foldl sha256Update sha256Init) = Sha256.hash pieces.flatten :=
  sha256Finish_eq (holds_sha256Init.updates pieces)

/-- The digest of "abc", in two pieces. -/
example : sha256Finish (sha256Update (sha256Update sha256Init [0x61]) [0x62, 0x63]) = [
    0xBA, 0x78, 0x16, 0xBF, 0x8F, 0x01, 0xCF, 0xEA, 0x41, 0x41, 0x40, 0xDE, 0x5D, 0xAE, 0x22, 0x23,
    0xB0, 0x03, 0x61, 0xA3, 0x96, 0x17, 0x7A, 0x9C, 0xB4, 0x10, 0xFF, 0x61, 0xF2, 0x00, 0x15,
    0xAD] := by decide +kernel

end Streaming

end ZeroFido.Hash
