import ScsiSwap.Proof.Blocks

/-!
# How a request is cut into blocks

The loops of `scsi_swap_core_read` and `scsi_swap_core_write` compute the segment of each
round from 32-bit block numbers: they go through the segments `visited start count`
(`coreWriteLoop_visited`, `coreReadLoop_visited`). For a request that ends at or below sector
2^32 that arithmetic is exact: the segments are `segments start count`, which cut the request
at the block boundaries (`visited_eq`). Beyond, it is not (`range_split_iff`).
-/

namespace ScsiSwap

open StateOption ByteCodec

variable {E : Env} {s s' : World}

/-- The first sector of round `i`. -/
def segStart (start i : ℕ) : ℕ := if i = 0 then start else 128 * (start / 128 + i)

/-- The segment of round `i` of a request for `count` sectors. -/
def segment (start count i : ℕ) : Seg where
  blk := (start / 128 + i : ℕ)
  bStart := 128 * (start / 128 + i)
  sStart := segStart start i
  sCount := min (start + count - segStart start i) (128 * (start / 128 + i + 1) - segStart start i)
  off := segStart start i - start

/-- The number of blocks a request touches. -/
def blockCount (start count : ℕ) : ℕ := (start % 128 + count + 127) / 128

def segments (start count : ℕ) : List Seg := (List.range (blockCount start count)).map (segment start count)

/-- A request whose sectors the driver's `int` and `u32` arithmetic can count. -/
structure Fits (start count R : ℕ) : Prop where
  user : start + count ≤ R
  size : R + maxReservedSector ≤ 2 ^ 32
  count : count + 128 ≤ 2 ^ 31

variable {start count R i : ℕ}

theorem fits_of_small (h : start + count ≤ R) (hR : R + maxReservedSector < 2 ^ 31) :
    Fits start count R := by
  simp only [maxReservedSector] at hR
  exact ⟨h, by simp only [maxReservedSector]; omega, by omega⟩

theorem s32_modEq (x : ℤ) : s32 x ≡ x [ZMOD 2 ^ 32] := by unfold Int.ModEq s32; omega

theorem u32_congr {x y : ℤ} (h : x ≡ y [ZMOD 2 ^ 32]) : u32 x = u32 y := congrArg Int.toNat h

theorem s32_congr {x y : ℤ} (h : x ≡ y [ZMOD 2 ^ 32]) : s32 x = s32 y :=
  congrArg (· - 2 ^ 31) (h.add_right _)

theorem u32_natCast (n : ℕ) : u32 (n : ℤ) = n % 2 ^ 32 := by unfold u32; omega

theorem swapBlockSector_modEq {i : ℤ} {n : ℕ} (h : i ≡ n [ZMOD 2 ^ 32]) :
    swapBlockSector i ≡ (128 * n : ℕ) [ZMOD 2 ^ 32] := by
  refine (s32_modEq _).trans ?_
  rw [show ((128 * n : ℕ) : ℤ) = (n : ℤ) * 128 by omega]
  exact h.mul_right 128

theorem getSwapBlockCount_eq (h : count + 128 ≤ 2 ^ 31) :
    (getSwapBlockCount start (s32 count)).toNat = blockCount start count := by
  have h1 : s32 (count : ℤ) = count := s32_ofNat (by omega)
  have hlen : s32 ((start : ℤ) + count - swapSectorAlign start) = (start % 128 + count : ℕ) := by
    have : (start : ℤ) + count - swapSectorAlign start = (start % 128 + count : ℕ) := by
      unfold swapSectorAlign swapBlockIndex; omega
    rw [this]
    exact s32_ofNat (by omega)
  unfold getSwapBlockCount blockCount
  rw [h1, hlen]
  dsimp only
  generalize start % 128 + count = n
  rw [Int.tdiv_eq_ediv_of_nonneg (by omega), Int.tmod_eq_emod_of_nonneg (by omega)]
  split <;> omega

theorem lt_blockCount (hi : i < blockCount start count) : 128 * (start / 128 + i) < start + count := by
  unfold blockCount at hi
  omega

/-- Where round `i` starts, relative to its block. -/
theorem segStart_bounds (hi : i < blockCount start count) :
    128 * (start / 128 + i) ≤ segStart start i ∧ segStart start i < 128 * (start / 128 + i) + 128 ∧
      start ≤ segStart start i ∧ segStart start i ≤ start + count := by
  have hlt := lt_blockCount hi
  unfold segStart
  split <;> omega

theorem segStart_lt (hpos : 0 < count) (hi : i < blockCount start count) : segStart start i < start + count := by
  have hlt := lt_blockCount hi
  unfold segStart
  split <;> omega

theorem Fits.le (h : Fits start count R) : start + count ≤ 2 ^ 32 := by
  have h1 := h.user
  have h2 := h.size
  omega

/-- The segment of round `i`, as the 32-bit arithmetic of the loops has it. -/
def segment32 (start count i : ℕ) : Seg :=
  { segment start count i with
    blk := s32 (start / 128 + i : ℕ)
    bStart := 128 * (start / 128 + i) % 2 ^ 32
    sStart := if i = 0 then start else 128 * (start / 128 + i) % 2 ^ 32 }

theorem segAt_eq (hi : i < blockCount start count) :
    segAt start i (start + count - segStart start i) (segStart start i - start) = segment32 start count i := by
  obtain ⟨hs1, hs2, -, -⟩ := segStart_bounds hi
  have hidx : s32 ((start / 128 : ℕ) : ℤ) + i ≡ (start / 128 + i : ℕ) [ZMOD 2 ^ 32] := by
    rw [Nat.cast_add]
    exact (s32_modEq _).add_right _
  have e1 : s32 (s32 ((start / 128 : ℕ) : ℤ) + i) = s32 (start / 128 + i : ℕ) := s32_congr hidx
  have e2 : u32 (swapBlockSector (s32 (start / 128 + i : ℕ))) = 128 * (start / 128 + i) % 2 ^ 32 := by
    rw [u32_congr (swapBlockSector_modEq (s32_modEq _)), u32_natCast]
  have hstart : ((if i = 0 then start else 128 * (start / 128 + i) % 2 ^ 32 : ℕ) : ℤ) ≡
      segStart start i [ZMOD 2 ^ 32] := by
    unfold segStart Int.ModEq
    split <;> omega
  have e3 : u32 (swapBlockSector (s32 (s32 (start / 128 + i : ℕ) + 1)) -
      (if i = 0 then start else 128 * (start / 128 + i) % 2 ^ 32 : ℕ)) =
      128 * (start / 128 + i + 1) - segStart start i := by
    have hnext : s32 (s32 (start / 128 + i : ℕ) + 1) ≡ (start / 128 + i + 1 : ℕ) [ZMOD 2 ^ 32] := by
      rw [Nat.cast_succ]
      exact (s32_modEq _).trans ((s32_modEq _).add_right _)
    rw [u32_congr ((swapBlockSector_modEq hnext).sub hstart),
      show ((128 * (start / 128 + i + 1) : ℕ) : ℤ) - segStart start i =
        (128 * (start / 128 + i + 1) - segStart start i : ℕ) by omega, u32_natCast]
    exact Nat.mod_eq_of_lt (by omega)
  have hseg : segAt start i (start + count - segStart start i) (segStart start i - start) =
      { blk := s32 (s32 (swapBlockIndex start) + i)
        bStart := u32 (swapBlockSector (s32 (s32 (swapBlockIndex start) + i)))
        sStart := if i = 0 then start else u32 (swapBlockSector (s32 (s32 (swapBlockIndex start) + i)))
        sCount := min (start + count - segStart start i)
          (u32 (swapBlockSector (s32 (s32 (s32 (swapBlockIndex start) + i) + 1)) -
          (if i = 0 then start else u32 (swapBlockSector (s32 (s32 (swapBlockIndex start) + i))) : ℕ)))
        off := segStart start i - start } := by
    rfl
  have e0 : swapBlockIndex start = start / 128 := rfl
  rw [hseg, e0, e1, e2, e3]
  rfl

theorem segment32_eq (h : start + count ≤ 2 ^ 32) (hi : i < blockCount start count) :
    segment32 start count i = segment start count i := by
  have hlt := lt_blockCount hi
  have h1 : s32 (start / 128 + i : ℕ) = (start / 128 + i : ℕ) := s32_ofNat (by omega)
  have h2 : 128 * (start / 128 + i) % 2 ^ 32 = 128 * (start / 128 + i) := Nat.mod_eq_of_lt (by omega)
  unfold segment32
  rw [h1, h2]
  rfl

theorem segment_ok (h : Fits start count R) (hi : i < blockCount start count) :
    (segment start count i).Ok R := by
  have hlt := lt_blockCount hi
  have h1 := h.user
  obtain ⟨h2, h3, -, h4⟩ := segStart_bounds hi
  constructor <;> simp only [segment] <;> omega

/-- A round that is not the last takes all that is left of its block. -/
theorem segStart_succ (hi : i + 1 < blockCount start count) :
    segStart start i + (segment start count i).sCount = segStart start (i + 1) := by
  have hlt := lt_blockCount hi
  obtain ⟨h1, h2, -, -⟩ := segStart_bounds (show i < blockCount start count by omega)
  have hnext : segStart start (i + 1) = 128 * (start / 128 + (i + 1)) := rfl
  simp only [segment]
  omega

theorem mem_segments {g : Seg} : g ∈ segments start count ↔
    ∃ i < blockCount start count, segment start count i = g := by
  simp [segments]

/-- The segments cover the request, and each knows its place in the buffer. -/
theorem segment_off (hi : i < blockCount start count) {x : ℕ} (hx : (segment start count i).area x) :
    start ≤ x ∧ x < start + count ∧ (segment start count i).off + (x - (segment start count i).sStart) =
      x - start := by
  obtain ⟨h1, h2⟩ := hx
  obtain ⟨-, -, hs, -⟩ := segStart_bounds hi
  simp only [segment] at *
  omega

theorem exists_segment {x : ℕ} (h1 : start ≤ x) (h2 : x < start + count) :
    x / 128 - start / 128 < blockCount start count ∧
      (segment start count (x / 128 - start / 128)).area x := by
  have hb : x / 128 - start / 128 < blockCount start count := by unfold blockCount; omega
  have hlt := lt_blockCount hb
  refine ⟨hb, ?_⟩
  unfold Seg.area segment segStart
  dsimp only
  split <;> omega

/-! ## The loops -/

/-- The loop of `scsi_swap_core_write`, over given segments. -/
def writeSegs (E : Env) (bad : ℤ) (buf : ℕ → Sector) : List Seg → SwapM Ret
  | [] => return .ok
  | g :: gs => do
    let r ← coreWriteBlock E bad g buf
    if r = .err then return .err
    else
      let r' ← writeSegs E bad buf gs
      return r.join r'

/-- The loop of `scsi_swap_core_read`, over given segments. -/
def readSegs (E : Env) (bad : ℤ) : List Seg → (ℕ → Sector) → SwapM (Ret × (ℕ → Sector))
  | [], buf => return (.ok, buf)
  | g :: gs, buf => do
    let (r, buf) ← coreReadBlock E bad g buf
    if r = .err then return (.err, buf)
    else
      let (r', buf) ← readSegs E bad gs buf
      return (r.join r', buf)

/-- The segments of the rounds from `i` on. -/
def segmentsFrom (start count i n : ℕ) : List Seg := (List.range' i n).map (segment start count)

theorem segments_eq : segments start count = segmentsFrom start count 0 (blockCount start count) := by
  unfold segments segmentsFrom
  rw [List.range_eq_range']

/-- The variables of the next round follow from those of this one. -/
theorem round_succ {n : ℕ} (hn : i + (n + 1) = blockCount start count) (hpos : n ≠ 0) :
    start + count - segStart start i - (segment start count i).sCount = start + count - segStart start (i + 1) ∧
      segStart start i - start + (segment start count i).sCount = segStart start (i + 1) - start := by
  have h1 := segStart_succ (show i + 1 < blockCount start count by omega)
  obtain ⟨-, -, h2, -⟩ := segStart_bounds (show i < blockCount start count by omega)
  omega

/-- The segments the loops compute, in `n` rounds from round `i` on. -/
def visitedFrom (start : ℕ) : ℕ → ℕ → ℕ → ℕ → List Seg
  | 0, _, _, _ => []
  | n + 1, i, count, off =>
    let g := segAt start i count off
    g :: visitedFrom start n (i + 1) (count - g.sCount) (off + g.sCount)

/-- The segments of a request, as the loops compute them. -/
def visited (start count : ℕ) : List Seg :=
  visitedFrom start (getSwapBlockCount start (s32 count)).toNat 0 count 0

theorem coreWriteLoop_visited {bad : ℤ} {buf : ℕ → Sector} : ∀ n i c off,
    coreWriteLoop E start bad buf n i c off = writeSegs E bad buf (visitedFrom start n i c off) := by
  intro n
  induction n with
  | zero => intro i c off; rfl
  | succ n ih =>
    intro i c off
    unfold coreWriteLoop
    dsimp only
    rw [ih]
    rfl

theorem coreReadLoop_visited {bad : ℤ} : ∀ n i c off buf,
    coreReadLoop E start bad n i c off buf = readSegs E bad (visitedFrom start n i c off) buf := by
  intro n
  induction n with
  | zero => intro i c off buf; rfl
  | succ n ih =>
    intro i c off buf
    unfold coreReadLoop
    dsimp only
    simp only [ih]
    rfl

theorem visitedFrom_eq : ∀ n i c off, i + n = blockCount start count →
    (n ≠ 0 → c = start + count - segStart start i ∧ off = segStart start i - start) →
    visitedFrom start n i c off = (List.range' i n).map (segment32 start count) := by
  intro n
  induction n with
  | zero => intro i c off _ _; rfl
  | succ n ih =>
    intro i c off hn hc
    obtain ⟨rfl, rfl⟩ := hc (by omega)
    have hs := segAt_eq (show i < blockCount start count by omega)
    have ih' := ih (i + 1) (start + count - segStart start i - (segment start count i).sCount)
      (segStart start i - start + (segment start count i).sCount) (by omega) (fun h0 => round_succ hn h0)
    unfold visitedFrom
    dsimp only
    rw [hs]
    exact congrArg _ ih'

theorem visited_eq_segment32 (hc : count + 128 ≤ 2 ^ 31) :
    visited start count = (List.range (blockCount start count)).map (segment32 start count) := by
  unfold visited
  rw [getSwapBlockCount_eq hc, List.range_eq_range']
  exact visitedFrom_eq _ 0 count 0 (by omega) fun _ => by simp [segStart]

theorem mem_visited (hc : count + 128 ≤ 2 ^ 31) {g : Seg} :
    g ∈ visited start count ↔ ∃ i < blockCount start count, segment32 start count i = g := by
  simp [visited_eq_segment32 hc]

/-- The segments from round `i` on follow each other, at `c` items a sector. -/
theorem segment32_tile (base c : ℕ) : ∀ n i, i + (n + 1) = blockCount start count →
    ((List.range' i (n + 1)).map (segment32 start count)).flatMap
        (fun g => List.range' (base + c * g.off) (c * g.sCount)) =
      List.range' (base + c * (segStart start i - start)) (c * (start + count - segStart start i)) := by
  intro n
  induction n with
  | zero =>
    intro i hi
    have hlast : (segment32 start count i).sCount = start + count - segStart start i := by
      obtain ⟨-, -, -, h⟩ := segStart_bounds (show i < blockCount start count by omega)
      unfold blockCount at hi
      simp only [segment32, segment]
      omega
    show List.range' (base + c * (segStart start i - start)) (c * (segment32 start count i).sCount) ++ [] = _
    rw [hlast, List.append_nil]
  | succ n ih =>
    intro i hi
    obtain ⟨hcount, hoff⟩ := round_succ hi (Nat.succ_ne_zero n)
    show List.range' (base + c * (segStart start i - start)) (c * (segment start count i).sCount) ++
      ((List.range' (i + 1) (n + 1)).map (segment32 start count)).flatMap
        (fun g => List.range' (base + c * g.off) (c * g.sCount)) = _
    rw [ih (i + 1) (by omega), ← hoff, ← hcount, Nat.mul_add, ← Nat.add_assoc, List.range'_append_1]
    congr 1
    have hle : (segment start count i).sCount ≤ start + count - segStart start i := min_le_left _ _
    rw [← Nat.mul_add]
    congr 1
    omega

/-- **The segments tile the request.** -/
theorem visited_tile (base c : ℕ) (hc : count + 128 ≤ 2 ^ 31) :
    (visited start count).flatMap (fun g => List.range' (base + c * g.off) (c * g.sCount)) =
      List.range' base (c * count) := by
  rw [visited_eq_segment32 hc]
  cases hn : blockCount start count with
  | zero =>
    obtain rfl : count = 0 := by unfold blockCount at hn; omega
    rfl
  | succ n =>
    have hs : segStart start 0 = start := rfl
    rw [List.range_eq_range', segment32_tile base c n 0 (by omega), hs, Nat.sub_self, Nat.mul_zero,
      Nat.add_zero, Nat.add_sub_cancel_left]

/-- **Below sector 2^32 the loops cut a request at the block boundaries.** -/
theorem visited_eq (h : start + count ≤ 2 ^ 32) (hc : count + 128 ≤ 2 ^ 31) :
    visited start count = segments start count := by
  rw [visited_eq_segment32 hc]
  exact List.map_congr_left fun i hi => segment32_eq h (List.mem_range.1 hi)

/-- With more sectors than an `int` can count there is no round. -/
theorem getSwapBlockCount_cases (h : start + count + 256 ≤ 2 ^ 32) :
    (getSwapBlockCount start (s32 count)).toNat = 0 ∨
      (getSwapBlockCount start (s32 count)).toNat = blockCount start count := by
  unfold getSwapBlockCount
  have hlen : s32 ((start : ℤ) + s32 count - swapSectorAlign start) = s32 (start % 128 + count : ℕ) := by
    unfold s32 swapSectorAlign swapBlockIndex
    omega
  rw [hlen]
  dsimp only
  generalize hn : start % 128 + count = n
  have hbc : blockCount start count = (n + 127) / 128 := by unfold blockCount; rw [hn]
  rw [hbc]
  rcases Nat.lt_or_ge n (2 ^ 31) with hlt | hge
  · right
    rw [s32_ofNat hlt, Int.tdiv_eq_ediv_of_nonneg (by omega), Int.tmod_eq_emod_of_nonneg (by omega)]
    split <;> omega
  · left
    have hneg : s32 (n : ℤ) = -((2 ^ 32 - n : ℕ) : ℤ) := by
      unfold s32
      omega
    rw [hneg, Int.neg_tdiv, Int.tdiv_eq_ediv_of_nonneg (by omega)]
    split <;> omega

/-- The segments of a request are part of it, however long it is. -/
theorem visited_range (h : start + count + 256 ≤ 2 ^ 32) {g : Seg} (hg : g ∈ visited start count) :
    start ≤ g.sStart ∧ g.sStart + g.sCount ≤ start + count := by
  unfold visited at hg
  rcases getSwapBlockCount_cases h with hn | hn
  · rw [hn] at hg
    exact absurd hg List.not_mem_nil
  · have hvisited : visitedFrom start (blockCount start count) 0 count 0 =
        (List.range' 0 (blockCount start count)).map (segment32 start count) :=
      visitedFrom_eq _ 0 count 0 (by omega) fun _ => by simp [segStart]
    rw [hn, hvisited] at hg
    obtain ⟨i, hi, rfl⟩ := List.mem_map.1 hg
    have hlt : i < blockCount start count := by
      have := (List.mem_range'_1.1 hi).2
      omega
    rw [segment32_eq (by omega) hlt]
    obtain ⟨-, -, h1, h2⟩ := segStart_bounds hlt
    simp only [segment]
    omega

/-! ## The whole range of sectors -/

/-- The blocks `_did_block_swapped` looks up as long as it finds none. -/
def examinedFrom (endSec : ℕ) : ℕ → ℕ → List ℕ
  | 0, _ => []
  | fuel + 1, start => if start < endSec then start :: examinedFrom endSec fuel (u64 (start + 128)) else []

def examined (start count : ℕ) : List ℕ :=
  examinedFrom (u64 (start + s32 count)) (count + 1) (swapSectorAlign start)

theorem didBlockSwappedFrom_examined {endSec : ℕ} : ∀ fuel start,
    s.didBlockSwappedFrom endSec fuel start =
      (examinedFrom endSec fuel start).any fun b => (s.swapFindSwapInfo b).isSome := by
  intro fuel
  induction fuel with
  | zero => intro start; rfl
  | succ fuel ih =>
    intro start
    unfold World.didBlockSwappedFrom examinedFrom
    split
    · rw [List.any_cons, ih]
      cases (s.swapFindSwapInfo start).isSome <;> rfl
    · rfl

theorem didBlockSwapped_examined :
    s.didBlockSwapped start count = (examined start count).any fun b => (s.swapFindSwapInfo b).isSome :=
  didBlockSwappedFrom_examined ..

theorem u64_ofNat {n : ℕ} (h : n < 2 ^ 64) : u64 (n : ℤ) = n := by unfold u64; omega

theorem examinedFrom_eq (h : start + count < 2 ^ 63) : ∀ n i fuel, i + n = blockCount start count → n < fuel →
    examinedFrom (start + count) fuel (128 * (start / 128 + i)) =
      (List.range' i n).map fun j => 128 * (start / 128 + j) := by
  intro n
  induction n with
  | zero =>
    intro i fuel hi hf
    obtain ⟨f, rfl⟩ : ∃ f, fuel = f + 1 := ⟨fuel - 1, by omega⟩
    unfold examinedFrom
    rw [if_neg (by unfold blockCount at hi; omega)]
    rfl
  | succ n ih =>
    intro i fuel hi hf
    obtain ⟨f, rfl⟩ : ∃ f, fuel = f + 1 := ⟨fuel - 1, by omega⟩
    have hlt := lt_blockCount (show i < blockCount start count by omega)
    have hnext : u64 ((128 * (start / 128 + i) : ℕ) + 128) = 128 * (start / 128 + (i + 1)) := by
      rw [show ((128 * (start / 128 + i) : ℕ) : ℤ) + 128 = (128 * (start / 128 + (i + 1)) : ℕ) by push_cast; ring]
      exact u64_ofNat (by omega)
    unfold examinedFrom
    rw [if_pos hlt, hnext, ih (i + 1) f (by omega) (by omega)]
    rfl

theorem swapSectorAlign_eq (start : ℕ) : swapSectorAlign start = 128 * (start / 128 + 0) := by
  unfold swapSectorAlign swapBlockIndex
  omega

theorem examined_eq (h : start + count < 2 ^ 63) (hc : count < 2 ^ 31) (hpos : 0 < count) :
    examined start count = (List.range (blockCount start count)).map fun j => 128 * (start / 128 + j) := by
  have hend : u64 ((start : ℤ) + s32 count) = start + count := by
    rw [s32_ofNat hc, ← Nat.cast_add]
    exact u64_ofNat (by omega)
  unfold examined
  rw [hend, swapSectorAlign_eq, List.range_eq_range']
  exact examinedFrom_eq h _ 0 (count + 1) (by omega) (by unfold blockCount; omega)

/-- The segments from round `i` on cover the rest of the request, in order. -/
theorem segmentsFrom_tile : ∀ n i, i + (n + 1) = blockCount start count →
    (segmentsFrom start count i (n + 1)).flatMap (fun g => List.range' g.sStart g.sCount) =
      List.range' (segStart start i) (start + count - segStart start i) := by
  intro n
  induction n with
  | zero =>
    intro i hi
    have hlast : (segment start count i).sCount = start + count - segStart start i := by
      obtain ⟨-, -, -, h⟩ := segStart_bounds (show i < blockCount start count by omega)
      unfold blockCount at hi
      simp only [segment]
      omega
    show List.range' (segStart start i) (segment start count i).sCount ++ [] = _
    rw [hlast, List.append_nil]
  | succ n ih =>
    intro i hi
    have hnext := segStart_succ (show i + 1 < blockCount start count by omega)
    obtain ⟨-, -, -, hle⟩ := segStart_bounds (show i + 1 < blockCount start count by omega)
    show List.range' (segStart start i) (segment start count i).sCount ++
      (segmentsFrom start count (i + 1) (n + 1)).flatMap (fun g => List.range' g.sStart g.sCount) = _
    rw [ih (i + 1) (by omega), ← hnext, List.range'_append_1]
    congr 1
    omega

/-- The loops split a request as they should, and look for the mappings that made
`_did_block_swapped` divert it. -/
structure SplitOk (start count : ℕ) : Prop where
  tile : (visited start count).flatMap (fun g => List.range' g.sStart g.sCount) = List.range' start count
  pos : ∀ g ∈ visited start count, 0 < g.sCount
  block : ∀ g ∈ visited start count, (g.sStart + g.sCount - 1) / 128 = g.sStart / 128
  lookup : (visited start count).map Seg.bStart = examined start count
  divert : ∀ s : World, s.didBlockSwapped start count = true ↔
    ∃ g ∈ visited start count, (s.swapFindSwapInfo g.bStart).isSome = true

theorem splitOk_of_le (h : start + count ≤ 2 ^ 32) (hpos : 0 < count) (hc : count < 2 ^ 22) :
    SplitOk start count := by
  have hv := visited_eq h (show count + 128 ≤ 2 ^ 31 by omega)
  have hlook : (visited start count).map Seg.bStart = examined start count := by
    rw [hv, examined_eq (by omega) (by omega) hpos]
    unfold segments
    rw [List.map_map]
    rfl
  refine ⟨?_, ?_, ?_, hlook, ?_⟩
  · obtain ⟨n, hn⟩ : ∃ n, blockCount start count = n + 1 :=
      ⟨blockCount start count - 1, by unfold blockCount; omega⟩
    rw [hv, segments_eq, hn, segmentsFrom_tile n 0 (by omega)]
    simp [segStart]
  · intro g hg
    obtain ⟨i, hi, rfl⟩ := mem_segments.1 (hv ▸ hg)
    have hlt := segStart_lt hpos hi
    obtain ⟨h1, h2, -, -⟩ := segStart_bounds hi
    simp only [segment]
    omega
  · intro g hg
    obtain ⟨i, hi, rfl⟩ := mem_segments.1 (hv ▸ hg)
    have hlt := segStart_lt hpos hi
    obtain ⟨h1, h2, -, -⟩ := segStart_bounds hi
    simp only [segment]
    omega
  · intro s
    rw [didBlockSwapped_examined, ← hlook, List.any_map, List.any_eq_true]
    rfl

/-- A range that reaches beyond sector 2^32 has a block there. -/
theorem exists_examined_ge (h : 2 ^ 32 < start + count) (h64 : start + count < 2 ^ 64) (hpos : 0 < count)
    (hc : count < 2 ^ 22) : ∃ b ∈ examined start count, 2 ^ 32 ≤ b := by
  by_cases hs : 2 ^ 32 ≤ start
  · -- the first block is one
    refine ⟨swapSectorAlign start, ?_, by unfold swapSectorAlign swapBlockIndex; omega⟩
    have hend : u64 ((start : ℤ) + s32 count) = start + count := by
      rw [s32_ofNat (by omega), ← Nat.cast_add]
      exact u64_ofNat h64
    unfold examined examinedFrom
    rw [hend, if_pos (by have := swapSectorAlign_le start; omega)]
    exact List.mem_cons_self
  · refine ⟨2 ^ 32, ?_, le_rfl⟩
    rw [examined_eq (by omega) (by omega) hpos, List.mem_map]
    refine ⟨2 ^ 25 - start / 128, List.mem_range.2 ?_, by omega⟩
    unfold blockCount
    omega

/-- **The loops split a request correctly, and agree with `_did_block_swapped`, exactly if it
ends at or below sector 2^32.** -/
theorem range_split_iff {start count : ℕ} (hpos : 0 < count) (hc : count < 2 ^ 22)
    (h64 : start + count < 2 ^ 64) :
    (∀ E bad buf, coreWriteLoop E start bad buf (getSwapBlockCount start (s32 count)).toNat 0 count 0 =
      writeSegs E bad buf (visited start count)) ∧
    (∀ E bad buf, coreReadLoop E start bad (getSwapBlockCount start (s32 count)).toNat 0 count 0 buf =
      readSegs E bad (visited start count) buf) ∧
    (SplitOk start count ↔ start + count ≤ 2 ^ 32) := by
  refine ⟨fun E bad buf => coreWriteLoop_visited .., fun E bad buf => coreReadLoop_visited .., ?_, ?_⟩
  · intro h
    by_contra hlt
    obtain ⟨b, hb, hge⟩ := exists_examined_ge (by omega) h64 hpos hc
    rw [← h.lookup] at hb
    obtain ⟨g, hg, rfl⟩ := List.mem_map.1 hb
    obtain ⟨i, -, rfl⟩ := (mem_visited (by omega)).1 hg
    -- the loops look up sectors below 2^32 only
    have hmod : (segment32 start count i).bStart < 2 ^ 32 := Nat.mod_lt _ (by decide)
    omega
  · intro h
    exact splitOk_of_le h hpos hc

/-- A request of 300 sectors that ends at sector 2^32. -/
theorem range_split_last : SplitOk (2 ^ 32 - 300) 300 :=
  (range_split_iff (by decide) (by decide) (by decide)).2.2.2 (by decide)

/-- **One sector at 2^32 is looked up under block 0.** A mapping of the block at 2^32 makes
`_did_block_swapped` divert the request, but the loops do not find it. -/
theorem range_split_wraps :
    examined (2 ^ 32) 1 = [2 ^ 32] ∧ (visited (2 ^ 32) 1).map Seg.bStart = [0] ∧ ¬ SplitOk (2 ^ 32) 1 := by
  have h1 : examined (2 ^ 32) 1 = [2 ^ 32] := by decide +kernel
  have h2 : (visited (2 ^ 32) 1).map Seg.bStart = [0] := by decide +kernel
  refine ⟨h1, h2, fun h => ?_⟩
  have := h.lookup
  rw [h1, h2] at this
  exact absurd this (by decide)

end ScsiSwap
