import Mathlib

/-!
# `core.h`: the layout of the reserved area, and C integer arithmetic

Sector numbers (`sector_t`) are natural numbers. Sums that stay inside the reserve do
not wrap, since the reserve lies inside the capacity of the disk; where the driver
computes with an arbitrary request (the block loops of `core.c`), every conversion to
`int`, `u32` or `sector_t` is written out with `s32`, `u32` and `u64`.
-/

namespace ScsiSwap

/-! ## Conversions -/

/-- Conversion to `int`, in two's complement. -/
def s32 (x : ℤ) : ℤ := (x + 2 ^ 31) % 2 ^ 32 - 2 ^ 31

/-- Conversion to `u32`. -/
def u32 (x : ℤ) : ℕ := (x % 2 ^ 32).toNat

/-- Conversion to `sector_t`. -/
def u64 (x : ℤ) : ℕ := (x % 2 ^ 64).toNat

/-! ## Constants -/

abbrev sectorSize : ℕ := 512
abbrev sector1M : ℕ := 2 * 1024
abbrev sector8M : ℕ := 16 * 1024

/-- `MAX_RESERVED_SECTOR`: the size of the reserve. -/
abbrev maxReservedSector : ℕ := 2 * 1024 * 1024


/-- `MAX_SWAP_BLOCK`: the number of spare blocks, `DATA_SECTOR / SECTOR_NUM_PER_SWAP_BLOCK`. -/
abbrev maxSwapBlock : ℕ := 1024

/-- `MAX_SWAP_BLOCK_FOR_USE`: the number of mappings the driver allows. -/
abbrev maxSwapBlockForUse : ℕ := 128

abbrev swapHeadOffest : ℕ := sector8M
abbrev swapTableOffset : ℕ := 2 * sector8M
abbrev swpaTableNSector : ℕ := 32
abbrev swapDataOffset : ℕ := 3 * sector8M
abbrev swapHeadBackupOffest : ℕ := 64
abbrev swapTableBackupOffset : ℕ := maxReservedSector - sector8M
abbrev maxSwapHeadBlockNum : ℕ := 8 * 128

abbrev swapLogHeadOffset : ℕ := swapTableBackupOffset - sector8M
abbrev swapLogDataOffset : ℕ := swapLogHeadOffset + sector1M

/-! ## Blocks

A swap block has `SECTOR_NUM_PER_SWAP_BLOCK` = 128 sectors, 64 KiB. -/

/-- `SWAP_BLOCK_INDEX` on a `sector_t`. -/
def swapBlockIndex (sector : ℕ) : ℕ := sector / 128

/-- `SWAP_SECTOR_ALIGN` on a `sector_t`. -/
def swapSectorAlign (sector : ℕ) : ℕ := swapBlockIndex sector * 128

/-- `SWAP_BLOCK_SECTOR` on an `int` index. -/
def swapBlockSector (i : ℤ) : ℤ := s32 (i * 128)

/-- `get_swap_block_count`. -/
def getSwapBlockCount (start : ℕ) (count : ℤ) : ℤ :=
  let nlen := s32 (start + count - swapSectorAlign start)
  nlen.tdiv 128 + (if nlen.tmod 128 = 0 then 0 else 1)

theorem swapSectorAlign_le (x : ℕ) : swapSectorAlign x ≤ x := by
  unfold swapSectorAlign swapBlockIndex; omega

theorem lt_swapSectorAlign_add (x : ℕ) : x < swapSectorAlign x + 128 := by
  unfold swapSectorAlign swapBlockIndex; omega

theorem swapSectorAlign_mod (x : ℕ) : swapSectorAlign x % 128 = 0 := by
  unfold swapSectorAlign swapBlockIndex; omega

end ScsiSwap
