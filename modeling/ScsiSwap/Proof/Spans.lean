import ScsiSwap.Proof.Segments

/-!
# The bytes a request copies

The loops of `core.c` count sectors in `int`, `u32` and `sector_t`, and bytes in `int`. This module follows
the bytes: the offset into the 64 KiB of a mapping (`dataOffsetBytes`), the spans `_swap_create` fills
(`CreateSpans`), and the spans of the request buffer (`Seg.sLen`). However large the sector numbers are,
the truncations cancel (`spans_in_bounds`).
-/

namespace ScsiSwap

open Set

variable {start count i : ℕ} {g : Seg}

/-! ## Byte counts -/

/-- `s_len`. -/
def Seg.sLen (g : Seg) : ℤ := s32 (s32 g.sCount * sectorSize)

/-- `data_offset` of `_swap_read` and `_swap_write`. `src` is the start of the block, after its conversion to
the type of the local variable. -/
def dataOffsetBytes (sectorStart src : ℕ) : ℤ := s32 (u64 (((sectorStart : ℤ) - src) * sectorSize))

/-- `buf_size` in `_swap_read` and `_swap_write`, after the `min`. -/
def copySize (sectorCount : ℕ) (bufSize : ℤ) : ℤ := min (s32 (s32 sectorCount * sectorSize)) bufSize

/-- Where `scsi_swap_core_read` begins to copy out of a mapping it has just made: `(u32)(s_start - b_start)`
sectors into `info->data`, in bytes. -/
def Seg.createdOffset (g : Seg) : ℕ := u32 (u32 (g.sStart - g.bStart) * sectorSize)

/-- How much it copies: `min((u32)s_len, (u32)SWAP_BLOCK_SIZE)`. -/
def Seg.createdSize (g : Seg) : ℕ := min (u32 g.sLen) (128 * sectorSize)

/-- The bytes of `info->data` that a copy of `size` bytes at `offset` touches. -/
def dataSpan (offset size : ℤ) : Set ℤ := Ico offset (offset + size)

/-- What `_swap_create` reads around the requested sectors: `front_len` sectors at the front of the block, and
`back_len` sectors from sector `back` on. -/
structure CreateSpans where
  frontLen : ℤ
  back : ℤ
  backLen : ℤ

/-- The variables of `_swap_create`. -/
def createSpans (needZeroOffset needZeroLen : ℤ) : CreateSpans :=
  let needZeroLen := if s32 (needZeroOffset + needZeroLen) > 128 then 128 - needZeroOffset else needZeroLen
  ⟨needZeroOffset, needZeroOffset + needZeroLen, 128 - (needZeroOffset + needZeroLen)⟩

/-- The spans `swap_create` has filled for a segment. -/
def Seg.createSpans (g : Seg) : CreateSpans :=
  ScsiSwap.createSpans (s32 ((g.sStart : ℤ) - swapSectorAlign g.sStart)) (s32 g.sCount)

/-- The front span of the block, in bytes. -/
def CreateSpans.front (c : CreateSpans) : Set ℤ := dataSpan 0 (s32 (c.frontLen * sectorSize))

/-- The back span of the block, in bytes. -/
def CreateSpans.rear (c : CreateSpans) : Set ℤ :=
  dataSpan (s32 (c.back * sectorSize)) (s32 (c.backLen * sectorSize))

/-! ## The model counts the same sectors -/

/-- The sector offset of the model is the byte offset of the code. -/
theorem dataOffset_eq_bytes (a b : ℕ) : dataOffset a b = (dataOffsetBytes a b / sectorSize).toNat := by
  have h : s32 (u64 (((a : ℤ) - b) * sectorSize)) = s32 (((a : ℤ) - b) * 512) := by
    refine s32_congr ?_
    unfold u64 Int.ModEq
    simp only [sectorSize]
    omega
  unfold dataOffset dataOffsetBytes
  rw [h]
  rfl

/-- `_swap_create` reads these spans. -/
theorem swapCreate'_spans (E : Env) (p src : ℕ) (off len : ℤ) :
    swapCreate' E p src off len = (do
      match ← swapAllocNewBlock E with
      | none => return false
      | some index =>
        let c := createSpans off len
        copyAround E p src 0 c.frontLen.toNat
        copyAround E p (src + c.back.toNat) c.back.toNat c.backLen.toNat
        modify fun s =>
          let t := { (s.heap p).table with srcSec := .ofNat 64 src, secSize := 128 }
          s.setInfo p { s.heap p with table := t.assign s.core.sectorData index }
        return true) := rfl

/-! ## One round -/

/-- A segment that stays in its block. -/
def Seg.InBlock (g : Seg) : Prop := g.sStart % 128 + g.sCount ≤ 128

theorem segment32_inBlock (hi : i < blockCount start count) : (segment32 start count i).InBlock := by
  obtain ⟨h1, h2, -, -⟩ := segStart_bounds hi
  unfold Seg.InBlock
  by_cases h0 : i = 0
  · subst h0
    have hs : segStart start 0 = start := rfl
    rw [hs] at h1 h2
    show start % 128 + min (start + count - start) (128 * (start / 128 + 0 + 1) - start) ≤ 128
    omega
  · have hs : (segment32 start count i).sStart = 128 * (start / 128 + i) % 2 ^ 32 := if_neg h0
    have hc : (segment32 start count i).sCount ≤ 128 * (start / 128 + i + 1) - segStart start i :=
      min_le_right _ _
    omega

/-- Where a segment lies in its block, from the two 32-bit variables. -/
theorem segment32_inBlk : u32 ((segment32 start count i).sStart - (segment32 start count i).bStart) =
    (segment32 start count i).sStart % 128 := by
  have hb : (segment32 start count i).bStart = 128 * (start / 128 + i) % 2 ^ 32 := rfl
  unfold u32
  by_cases h0 : i = 0
  · subst h0
    have hs : (segment32 start count 0).sStart = start := rfl
    rw [hs, hb]
    omega
  · have hs : (segment32 start count i).sStart = 128 * (start / 128 + i) % 2 ^ 32 := if_neg h0
    rw [hs, hb]
    omega

/-- **The offset into the block** does not depend on whether the variable that holds the start of the block has
room for it: what is cut off is a multiple of 2^32. -/
theorem dataOffsetBytes_eq {a src : ℕ} (hsrc : src % 2 ^ 32 = swapSectorAlign a % 2 ^ 32) :
    dataOffsetBytes a src = 512 * (a % 128 : ℕ) := by
  have h : ((u64 (((a : ℤ) - src) * sectorSize) : ℕ) : ℤ) ≡ (512 * (a % 128) : ℕ) [ZMOD 2 ^ 32] := by
    unfold swapSectorAlign swapBlockIndex at hsrc
    unfold u64 Int.ModEq
    simp only [sectorSize]
    omega
  unfold dataOffsetBytes
  rw [s32_congr h, s32_ofNat (by omega)]
  push_cast
  rfl

theorem dataOffsetBytes_read (a : ℕ) : dataOffsetBytes a (swapSectorAlign a) = 512 * (a % 128 : ℕ) :=
  dataOffsetBytes_eq rfl

theorem dataOffsetBytes_write (a : ℕ) : dataOffsetBytes a (u32 (swapSectorAlign a)) = 512 * (a % 128 : ℕ) := by
  refine dataOffsetBytes_eq ?_
  rw [u32_natCast, Nat.mod_mod]

theorem Seg.InBlock.sLen_eq (h : g.InBlock) : g.sLen = 512 * g.sCount := by
  unfold Seg.InBlock at h
  unfold Seg.sLen s32
  simp only [sectorSize]
  omega

theorem Seg.InBlock.copySize_eq (h : g.InBlock) : copySize g.sCount g.sLen = 512 * g.sCount := by
  have hself : copySize g.sCount g.sLen = g.sLen := min_self _
  rw [hself, h.sLen_eq]

theorem Seg.InBlock.createdSize_eq (h : g.InBlock) : g.createdSize = 512 * g.sCount := by
  unfold Seg.createdSize
  rw [h.sLen_eq]
  unfold Seg.InBlock at h
  unfold u32
  simp only [sectorSize]
  omega

/-- The spans around a segment that stays in its block. -/
theorem Seg.InBlock.createSpans_eq (h : g.InBlock) :
    g.createSpans = ⟨(g.sStart % 128 : ℕ), (g.sStart % 128 + g.sCount : ℕ),
      (128 - (g.sStart % 128 + g.sCount) : ℕ)⟩ := by
  unfold Seg.InBlock at h
  have hoff : s32 ((g.sStart : ℤ) - swapSectorAlign g.sStart) = (g.sStart % 128 : ℕ) := by
    unfold swapSectorAlign swapBlockIndex s32
    omega
  have hlen : s32 (g.sCount : ℤ) = g.sCount := s32_ofNat (by omega)
  have hsum : s32 ((g.sStart % 128 : ℕ) + (g.sCount : ℤ)) = (g.sStart % 128 + g.sCount : ℕ) := by
    rw [← Nat.cast_add]
    exact s32_ofNat (by omega)
  unfold Seg.createSpans ScsiSwap.createSpans
  rw [hoff, hlen, hsum, if_neg (by omega)]
  push_cast [h]
  rfl

theorem s32_bytes {n : ℕ} (h : n ≤ 128) : s32 ((n : ℤ) * sectorSize) = 512 * n := by
  unfold s32
  simp only [sectorSize]
  omega

theorem Seg.InBlock.front_eq (h : g.InBlock) : g.createSpans.front = Ico 0 (512 * (g.sStart % 128 : ℕ) : ℤ) := by
  have hn : g.sStart % 128 ≤ 128 := by omega
  rw [h.createSpans_eq]
  unfold CreateSpans.front dataSpan
  rw [s32_bytes hn, zero_add]

theorem Seg.InBlock.rear_eq (h : g.InBlock) :
    g.createSpans.rear = Ico (512 * (g.sStart % 128 + g.sCount : ℕ) : ℤ) 65536 := by
  rw [h.createSpans_eq]
  unfold CreateSpans.rear dataSpan
  rw [s32_bytes h, s32_bytes (Nat.sub_le _ _)]
  congr 1
  unfold Seg.InBlock at h
  push_cast [h]
  ring

/-! ## The request -/

/-- What a request copies stays where it belongs. -/
structure SpansOk (start count : ℕ) : Prop where
  /-- The rounds of `core_read` and `core_write` are those of `visited`. -/
  rounds : ∀ (E : Env) (bad : ℤ) (buf : ℕ → Sector),
    coreReadLoop E start bad (getSwapBlockCount start (s32 count)).toNat 0 count 0 buf =
      readSegs E bad (visited start count) buf ∧
    coreWriteLoop E start bad buf (getSwapBlockCount start (s32 count)).toNat 0 count 0 =
      writeSegs E bad buf (visited start count)
  /-- Where the span of `info->data` begins, in `_swap_read` and in `_swap_write`. -/
  offset : ∀ g ∈ visited start count,
    dataOffsetBytes g.sStart (swapSectorAlign g.sStart) = 512 * (g.sStart % 128 : ℕ) ∧
      dataOffsetBytes g.sStart (u32 (swapSectorAlign g.sStart)) = 512 * (g.sStart % 128 : ℕ)
  /-- It ends inside the 64 KiB. -/
  fits : ∀ g ∈ visited start count, 512 * (g.sStart % 128 : ℕ) + copySize g.sCount g.sLen ≤ 65536
  /-- So does the span that `core_read` copies out of a mapping it has just made, and it is the one the model
  copies. -/
  created : ∀ g ∈ visited start count,
    g.createdOffset = 512 * (g.sStart % 128) ∧ g.createdOffset + g.createdSize ≤ 65536 ∧
      g.createdOffset = 512 * u32 (g.sStart - g.bStart) ∧ g.createdSize = 512 * min g.sCount 128
  /-- The spans `_swap_create` fills lie in the block, beside the requested one. -/
  around : ∀ g ∈ visited start count,
    g.createSpans.front ⊆ Ico 0 65536 ∧ g.createSpans.rear ⊆ Ico 0 65536 ∧
      Disjoint g.createSpans.front (dataSpan (512 * (g.sStart % 128 : ℕ)) (copySize g.sCount g.sLen)) ∧
      Disjoint g.createSpans.rear (dataSpan (512 * (g.sStart % 128 : ℕ)) (copySize g.sCount g.sLen))
  /-- The spans of the request buffer follow each other and are `512 * count` bytes. -/
  buffer : (visited start count).flatMap (fun g => List.range' (512 * g.off) g.sLen.toNat) =
    List.range' 0 (512 * count)

/-- **The buffer arithmetic stays in bounds**, wherever the request starts. -/
theorem spans_in_bounds (start : ℕ) (hc : count < 2 ^ 22) : SpansOk start count := by
  have hvis : ∀ g ∈ visited start count, g.InBlock := by
    intro g hg
    obtain ⟨i, hi, rfl⟩ := (mem_visited (by omega)).1 hg
    exact segment32_inBlock hi
  refine ⟨fun E bad buf => ⟨coreReadLoop_visited .., coreWriteLoop_visited ..⟩,
    fun g _ => ⟨dataOffsetBytes_read _, dataOffsetBytes_write _⟩, ?_, ?_, ?_, ?_⟩
  · intro g hg
    rw [(hvis g hg).copySize_eq]
    have := hvis g hg
    unfold Seg.InBlock at this
    omega
  · intro g hg
    have hin := hvis g hg
    have hinBlk : u32 (g.sStart - g.bStart) = g.sStart % 128 := by
      obtain ⟨i, -, rfl⟩ := (mem_visited (by omega)).1 hg
      exact segment32_inBlk
    have hoff : g.createdOffset = 512 * (g.sStart % 128) := by
      unfold Seg.createdOffset
      rw [hinBlk]
      unfold u32
      simp only [sectorSize]
      omega
    rw [hoff, hinBlk, hin.createdSize_eq]
    unfold Seg.InBlock at hin
    exact ⟨rfl, by omega, rfl, by omega⟩
  · intro g hg
    have hin := hvis g hg
    have hle := hin
    unfold Seg.InBlock at hle
    rw [hin.front_eq, hin.rear_eq, hin.copySize_eq]
    unfold dataSpan
    refine ⟨Ico_subset_Ico le_rfl (by omega), Ico_subset_Ico (by omega) le_rfl, ?_, ?_⟩
    · rw [Ico_disjoint_Ico]
      omega
    · rw [Ico_disjoint_Ico]
      omega
  · have hlen : (visited start count).flatMap (fun g => List.range' (512 * g.off) g.sLen.toNat) =
        (visited start count).flatMap (fun g => List.range' (0 + 512 * g.off) (512 * g.sCount)) := by
      refine List.flatMap_congr fun g hg => ?_
      rw [(hvis g hg).sLen_eq, Nat.zero_add]
      rfl
    rw [hlen, visited_tile 0 512 (by omega)]

/-- A request near the end of the 64-bit sectors. -/
theorem spans_in_bounds_end : SpansOk (2 ^ 64 - 1000) 300 :=
  spans_in_bounds _ (by decide)

end ScsiSwap
