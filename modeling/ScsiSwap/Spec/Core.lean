import ScsiSwap.Spec.Log

/-!
# `core.c`: mappings, and the two I/O paths

The functions of `core.c` that run while the disk is in use, under their own names. Those
whose names start with an underscore (`_swap_create`, `_swap_read`, `_swap_write`) carry a
prime. Data is counted in sectors: every `memcpy` of the driver moves whole sectors.

A function that returns 0 or -1 returns a `Bool` here (`true` for 0).
-/

namespace ScsiSwap

open ByteCodec

/-! ## The bitmap -/

/-- `swap_bitmap_set_bit(map, nbit, 1)`. -/
def bitmapSet (b : BitVec 1024) (nbit : ℕ) : BitVec 1024 := b ||| BitVec.twoPow 1024 nbit

/-- `swap_bitmap_set_bit(map, nbit, 0)`. -/
def bitmapClear (b : BitVec 1024) (nbit : ℕ) : BitVec 1024 := b &&& ~~~ BitVec.twoPow 1024 nbit

/-- `swap_head_bitmap_get_first_zero_bit`; `none` for -1. -/
@[irreducible] def firstZeroBit (b : BitVec 1024) :
    Option ℕ := (List.range maxSwapBlock).find? fun i => !b.getLsbD i

/-! ## State updates -/

def World.setBitmap (s : World) (b : BitVec 1024) : World :=
  { s with core := { s.core with head := { s.core.head with bitmap := b } } }

def World.setInfo (s : World) (p : ℕ) (i : SwapInfo) : World := { s with heap := Function.update s.heap p i }

/-- `info->data`, seen as the source of a transfer. -/
def blockBuf (d : Block) (k : ℕ) : Sector := if h : k < 128 then d ⟨k, h⟩ else zeroSector

/-- Copy `n` sectors of a buffer into a block, from sector `off` of the block on. -/
def copyIn (d : Block) (off n : ℕ) (buf : ℕ → Sector) : Block :=
  fun k => if off ≤ k.val ∧ k.val < off + n then buf (k - off) else d k

/-- Overwrite a buffer from sector `off` on with what a read left there. -/
def fillBuf (buf : ℕ → Sector) (off : ℕ) (new : ℕ → Option Sector) : ℕ → Sector :=
  fun k => if off ≤ k then (new (k - off)).getD (buf k) else buf k

/-! ## Flushing -/

/-- `flush_swap_info_data`. -/
def flushSwapInfoData (E : Env) (p : ℕ) : SwapM Bool := do
  let s ← get
  let info := s.heap p
  match info.data with
  | none => return false
  | some d => hdWriteSectorRetry E .block info.table.swapSec.toNat info.table.secSize.toNat (blockBuf d)

/-- The `while (0 != hd_write_sector_retry(device, sect++, 1, buffer, SECTOR_SIZE))` loops of
`flush_swap_info_table` and `init_swap_info`: try the next sector until one can be written or
`limit` is reached. Returns the sector after the last one tried. -/
def writeSkip (E : Env) (buffer : Sector) (limit : ℕ) : ℕ → ℕ → SwapM ℕ
  | fuel, sect => do
    let ok ← hdWriteSectorRetry E .table sect 1 (fun _ => buffer)
    if ok ∨ sect + 1 ≥ limit then return sect + 1
    else match fuel with
      | 0 => return sect + 1
      | fuel + 1 => writeSkip E buffer limit fuel (sect + 1)

/-- One table sector, to the master and to the backup area. -/
def flushTableSector (E : Env) (buffer : Sector) (sect back : ℕ) : SwapM (ℕ × ℕ) := do
  let s ← get
  let limit := s.core.sectorTable + swpaTableNSector
  let limitBack := s.core.sectorReserveStart + swapTableBackupOffset + swpaTableNSector
  let sect ← writeSkip E buffer limit (limit - sect) sect
  let back ← writeSkip E buffer limitBack (limitBack - back) back
  return (sect, back)

/-- The loop of `flush_swap_info_table` over the list, and the write of the last, partial
sector after it. `i` entries of the current sector are filled. -/
def flushTableLoop (E : Env) : List ℕ → ℕ → Sector → ℕ → ℕ → SwapM Unit
  | [], i, buffer, sect, back => do
    if i ≠ 0 then
      let _ ← flushTableSector E buffer sect back
    else return ()
  | p :: ps, i, buffer, sect, back => do
    let s ← get
    let info := s.heap p
    let info := { info with table := { info.table with saveSec := .ofNat 64 sect } }
    set (s.setInfo p info)
    let buffer := putTable (if i = 0 then zeroSector else buffer) (.ofNat 8 i) info.table
    if i = 7 then
      let (sect, back) ← flushTableSector E buffer sect back
      flushTableLoop E ps 0 buffer sect back
    else flushTableLoop E ps (i + 1) buffer sect back

/-- `flush_swap_info_table`: it returns 0 whatever happened to the writes. -/
def flushSwapInfoTable (E : Env) : SwapM Bool := do
  let s ← get
  flushTableLoop E s.core.infoList 0 zeroSector s.core.sectorTable
    (s.core.sectorReserveStart + swapTableBackupOffset)
  return true

/-- `flush_swap_head`. -/
def flushSwapHead (E : Env) : SwapM Bool := do
  let s ← get
  let head := { s.core.head with checksum := s.core.head.crc }
  set { s with core := { s.core with head := head } }
  -- a failed write of the master is only reported; the backup is written all the same
  let _ ← hdWriteSectorRetry E .head s.core.sectorHead 1 (fun _ => swapHeadEquiv head)
  hdWriteSectorRetry E .head (s.core.sectorHead + swapHeadBackupOffest) 1 (fun _ => swapHeadEquiv head)

/-! ## Spare blocks -/

/-- `swap_find_swap_info`. -/
def World.swapFindSwapInfo (s : World) (sector : ℕ) : Option ℕ :=
  s.core.infoList.find? fun p => (s.heap p).table.srcSec.toNat = sector

/-- `swap_check_block`: write zeros over a whole block. -/
def swapCheckBlock (E : Env) (secStart : ℕ) : SwapM Bool := do
  if ← kmalloc E then hdWriteSectorRetry E .block secStart 128 (fun _ => zeroSector)
  else return false

/-- The loop of `_swap_alloc_new_block`, with the number of failures still allowed. -/
def swapAllocLoop (E : Env) : ℕ → ℕ → SwapM (Option ℕ)
  | left, index => do
    let s ← get
    if ← swapCheckBlock E (s.core.sectorData + 128 * index) then
      modify fun s => s.setBitmap (bitmapSet s.core.head.bitmap index)
      return some index
    else match left with
      | 0 =>
        deviceDeadInc
        return none
      | left + 1 =>
        -- a block that cannot be written is marked used, and the next free one tried
        modify fun s => s.setBitmap (bitmapSet s.core.head.bitmap index)
        let s ← get
        match firstZeroBit s.core.head.bitmap with
        | none => return none
        | some index => swapAllocLoop E left index

/-- `_swap_alloc_new_block`; `none` for -1. -/
def swapAllocNewBlock (E : Env) : SwapM (Option ℕ) := do
  let s ← get
  match firstZeroBit s.core.head.bitmap with
  | none => return none
  | some index => swapAllocLoop E 16 index

/-! ## Creating, moving and writing a mapping -/

/-- The table entry set up by `_swap_create`, and updated by `swap_recreate`. -/
def SwapTable.assign (t : SwapTable) (sectorData index : ℕ) : SwapTable :=
  let t := { t with index := .ofNat 32 index, swapSec := .ofNat 64 (sectorData + 128 * index) }
  { t with checksum := t.crc }

def SwapTable.zero : SwapTable := ⟨0, 0, 0, 0, 0, fun _ => 0, 0, 0⟩

/-- One of the two copies of `_swap_create`: read `len` sectors from `sector` on into the
block, at sector `off` of it. What cannot be read is left as it is. -/
def copyAround (E : Env) (p sector off len : ℕ) : SwapM Unit :=
  if len > 0 then do
    let (_, buf) ← hdReadSectorNoRetry E sector len
    modify fun s => s.setInfo p { s.heap p with
      data := (s.heap p).data.map fun d => fun k => fillBuf (blockBuf d) off buf k }
  else return ()

/-- `_swap_create`: choose a spare block and copy what surrounds the requested range from
the disk. -/
def swapCreate' (E : Env) (p src : ℕ) (needZeroOffset needZeroLen : ℤ) : SwapM Bool := do
  match ← swapAllocNewBlock E with
  | none => return false
  | some index =>
    let needZeroLen := if s32 (needZeroOffset + needZeroLen) > 128 then 128 - needZeroOffset else needZeroLen
    let backOff := (needZeroOffset + needZeroLen).toNat
    copyAround E p src 0 needZeroOffset.toNat
    copyAround E p (src + backOff) backOff (128 - (needZeroOffset + needZeroLen)).toNat
    modify fun s =>
      let t := { (s.heap p).table with srcSec := .ofNat 64 src, secSize := 128 }
      s.setInfo p { s.heap p with table := t.assign s.core.sectorData index }
    return true

/-- `_swap_alloc_info`: a zeroed entry with a zeroed block. -/
def swapAllocInfo (E : Env) : SwapM (Option ℕ) := do
  if ← kmalloc E then
    if ← kmalloc E then
      let s ← get
      set { s.setInfo s.brk ⟨SwapTable.zero, some fun _ => zeroSector⟩ with brk := s.brk + 1 }
      return some s.brk
    else return none
  else return none

/-- `enum LOG_CREATE_FAILED`. -/
inductive LogCreateFailed where
  | maxcount
  | malloc
  | writeDst
  | flushHead
  deriving DecidableEq, Repr

/-- `LOG_RESULT`; `none` for the reason -1. -/
def logResult : Option LogCreateFailed → BitVec 8
  | none => 0
  | some .maxcount => 1
  | some .malloc => 3
  | some .writeDst => 5
  | some .flushHead => 7

/-- `LOG_TYPE_CREATE`. -/
def logTypeCreate : BitVec 8 := 0

/-- The part of `swap_create` before its label `out`: a mapping, or the reason of failure.
An entry that is freed is not used again. -/
def swapCreateTry (E : Env) (sectorStart sectorCount : ℕ) : SwapM (ℕ ⊕ LogCreateFailed) := do
  let s ← get
  if s.core.infoNum ≥ maxSwapBlockForUse then return .inr .maxcount
  else
    let sectorBswap := swapSectorAlign sectorStart
    match ← swapAllocInfo E with
    | none => return .inr .malloc
    | some p =>
      if ← swapCreate' E p sectorBswap (s32 (sectorStart - sectorBswap)) (s32 sectorCount) then
        if ← flushSwapHead E then return .inl p
        else
          modify fun s => s.setBitmap (bitmapClear s.core.head.bitmap (s.heap p).table.index.toNat)
          return .inr .flushHead
      else return .inr .writeDst

/-- `swap_create`; `none` for the null pointer. -/
def swapCreate (E : Env) (sectorStart sectorCount : ℕ) : SwapM (Option ℕ) := do
  match ← swapCreateTry E sectorStart sectorCount with
  | .inl p =>
    let s ← get
    let t := (s.heap p).table
    let _ ← scsiSwapLogPush E logTypeCreate (logResult none) t.srcSec t.swapSec (t.secSize.setWidth 16)
    return some p
  | .inr reason =>
    let _ ← scsiSwapLogPush E logTypeCreate (logResult (some reason)) (.ofNat 64 sectorStart) (-1)
      (.ofNat 16 sectorCount)
    return none

/-- The offset of a sector in the block that holds it, as `_swap_read` and `_swap_write`
compute it: in bytes, then used as an `int`. `src` is the start of the block, after its
conversion to the type of the local variable. -/
def dataOffset (sectorStart src : ℕ) : ℕ := ((s32 ((sectorStart - src) * 512)) / 512).toNat

/-- `_swap_read`. -/
def swapRead' (p sectorStart sectorCount : ℕ) (buf : ℕ → Sector) (off : ℕ) : SwapM (ℕ → Sector) := do
  let s ← get
  match (s.heap p).data with
  | none => oops
  | some d =>
    let dataOff := dataOffset sectorStart (swapSectorAlign sectorStart)
    return fillBuf buf off fun k => if k < sectorCount then some (blockBuf d (dataOff + k)) else none

/-- `_swap_write`; here the start of the block is held in a `u32`. -/
def swapWrite' (E : Env) (p sectorStart sectorCount : ℕ) (buf : ℕ → Sector) : SwapM Bool := do
  let s ← get
  match (s.heap p).data with
  | none => oops
  | some d =>
    let dataOff := dataOffset sectorStart (u32 (swapSectorAlign sectorStart))
    set (s.setInfo p { s.heap p with data := some (copyIn d dataOff sectorCount buf) })
    flushSwapInfoData E p

/-- One round of the loop in `swap_recreate`: read sector `i` of the old block back into
memory, or clear it. With a null `info->data` the read refuses the buffer and the clearing
kills the kernel. -/
def rereadSector (E : Env) (p i : ℕ) : SwapM Unit := do
  let s ← get
  match (s.heap p).data with
  | none => oops
  | some _ =>
    let (ok, buf) ← hdReadSectorNoRetry E ((s.heap p).table.swapSec.toNat + i) 1
    modify fun s => s.setInfo p { s.heap p with
      data := (s.heap p).data.map fun d =>
        copyIn d i 1 fun _ => if ok then (buf 0).getD zeroSector else zeroSector }

/-- `swap_recreate`. -/
def swapRecreate (E : Env) (p : ℕ) : SwapM Bool := do
  let s ← get
  if s.core.infoNum ≥ maxSwapBlockForUse then return false
  else match ← swapAllocNewBlock E with
    | none => return false
    | some index =>
      (List.range 128).forM (rereadSector E p)
      modify fun s => s.setInfo p { s.heap p with table := (s.heap p).table.assign s.core.sectorData index }
      let ok ← (do
        if ← flushSwapInfoData E p then
          if ← flushSwapInfoTable E then flushSwapHead E else return false
        else return false)
      if ok then return true
      else
        -- the label `err`: only the bitmap is taken back, not the entry
        modify fun s => s.setBitmap (bitmapClear s.core.head.bitmap index)
        return false

/-- The return values of `scsi_swap_core_read`, `scsi_swap_core_write` and `swap_write`. -/
inductive Ret where
  /-- 0 -/
  | ok
  /-- -1 -/
  | err
  /-- `-DATA_MAY_DIRTY` -/
  | dirty
  deriving DecidableEq, Repr

/-- `swap_write`. -/
def swapWrite (E : Env) (p sectorStart sectorCount : ℕ) (buf : ℕ → Sector) : SwapM Ret := do
  if ← swapWrite' E p sectorStart sectorCount buf then return .ok
  else if ← swapRecreate E p then
    if ← swapWrite' E p sectorStart sectorCount buf then return .dirty else return .err
  else return .err

/-- `swap_repair_successive_sectors`: it never returns 0. -/
def swapRepairSuccessiveSectors (E : Env) : SwapM ℤ := do
  if ← hdTestUnitReady E then return -1
  else
    deviceDeadInc
    return -5

/-- `_did_block_swapped`, from block start `start` on, for at most `fuel` blocks. -/
def World.didBlockSwappedFrom (s : World) (endSec : ℕ) : ℕ → ℕ → Bool
  | 0, _ => false
  | fuel + 1, start =>
    if start < endSec then
      if (s.swapFindSwapInfo start).isSome then true
      else s.didBlockSwappedFrom endSec fuel (u64 (start + 128))
    else false

/-- `_did_block_swapped`. The loop visits at most one block per sector of the range, and one
more when the range starts inside a block. (In a range that ends in the last block below 2^64 the
counter of the code wraps to 0 and the loop goes on; here it stops.) -/
def World.didBlockSwapped (s : World) (sector : ℕ) (count : ℕ) : Bool :=
  s.didBlockSwappedFrom (u64 (sector + s32 count)) (count + 1) (swapSectorAlign sector)

/-! ## `scsi_swap_core_read` and `scsi_swap_core_write` -/

/-- One round of the block loops: the block number `i_start + i`, the sector `b_start` it is
looked up under, and the part of the request that falls into it, with its place in the
request buffer. -/
structure Seg where
  blk : ℤ
  bStart : ℕ
  sStart : ℕ
  sCount : ℕ
  off : ℕ

/-- The variables of round `i`, for what is left of the request (`count` sectors, to be
found in the buffer from `off` on). -/
def segAt (start i count off : ℕ) : Seg :=
  let iStart := s32 (swapBlockIndex start)
  let bStart := u32 (swapBlockSector (s32 (iStart + i)))
  let sStart := if i = 0 then start else bStart
  let sCount := min count (u32 (swapBlockSector (s32 (s32 (iStart + i) + 1)) - sStart))
  { blk := s32 (iStart + i), bStart := bStart, sStart := sStart, sCount := sCount, off := off }

/-- `i_bad`. -/
def badIndex (bad : ℕ) : ℤ := if bad = 2 ^ 64 - 1 then -1 else s32 (swapBlockIndex bad)

/-- What the loops do once a block is known to be bad: try to repair it, and create a
mapping. The repair never succeeds, so the branches after a successful one are not here. -/
def repairAndCreate (E : Env) (sStart sCount : ℕ) : SwapM (Option ℕ) := do
  let _ ← swapRepairSuccessiveSectors E
  let s ← get
  if s.core.deviceDead ≠ 0 then return none else swapCreate E sStart sCount

/-- Undo a creation: the bit is cleared and the entry freed. -/
def dropCreated (p : ℕ) : SwapM Unit :=
  modify fun s => s.setBitmap (bitmapClear s.core.head.bitmap (s.heap p).table.index.toNat)

/-- The end of a creation: enter the mapping in the list and in the table. -/
def enterCreated (E : Env) (p : ℕ) : SwapM Bool := do
  modify fun s => { s with core := { s.core with infoList := s.core.infoList ++ [p] } }
  if ← flushSwapInfoTable E then
    modify fun s => { s with core := { s.core with infoNum := s.core.infoNum + 1 } }
    return true
  else
    dropCreated p
    return false

/-- The body of the loop of `scsi_swap_core_read`. `Ret.err` is `goto err`, `Ret.dirty` sets
`data_dirty`. -/
def coreReadBlock (E : Env) (bad : ℤ) (g : Seg) (buf : ℕ → Sector) : SwapM (Ret × (ℕ → Sector)) := do
  let s ← get
  match s.swapFindSwapInfo g.bStart with
  | some p =>
    let buf ← swapRead' p g.sStart g.sCount buf g.off
    return (.ok, buf)
  | none =>
    let (done, buf) ← (do
      if bad ≠ g.blk then
        let (ok, new) ← hdReadSectorRetry E g.sStart g.sCount
        return (ok, fillBuf buf g.off new)
      else return (false, buf))
    let s ← get
    if done then return (.ok, buf)
    else if bad ≠ g.blk ∧ s.core.deviceDead ≠ 0 then return (.err, buf)
    else match ← repairAndCreate E g.sStart g.sCount with
      | none => return (.err, buf)
      | some p =>
        let s ← get
        match (s.heap p).data with
        | none => oops
        | some d =>
          let inBlk := u32 (g.sStart - g.bStart)
          let buf := fillBuf buf g.off fun k =>
            if k < min g.sCount 128 then some (blockBuf d (inBlk + k)) else none
          if ← flushSwapInfoData E p then
            if ← enterCreated E p then return (.dirty, buf) else return (.err, buf)
          else
            dropCreated p
            return (.err, buf)

/-- The body of the loop of `scsi_swap_core_write`. -/
def coreWriteBlock (E : Env) (bad : ℤ) (g : Seg) (buf : ℕ → Sector) : SwapM Ret := do
  let s ← get
  let src := fun k => buf (g.off + k)
  match s.swapFindSwapInfo g.bStart with
  | some p =>
    match ← swapWrite E p g.sStart g.sCount src with
    | .ok => return .ok
    | .dirty => if g.sCount < 128 then return .dirty else return .ok
    | .err => return .err
  | none =>
    let done ← (do
      if bad ≠ g.blk then hdWriteSectorRetry E .user g.sStart g.sCount src else return false)
    let s ← get
    if done then return .ok
    else if bad ≠ g.blk ∧ s.core.deviceDead ≠ 0 then return .err
    else match ← repairAndCreate E g.sStart g.sCount with
      | none => return .err
      | some p =>
        match ← swapWrite E p g.sStart g.sCount src with
        | .ok =>
          if ← enterCreated E p then
            if g.sCount < 128 then return .dirty else return .ok
          else return .err
        | _ =>
          dropCreated p
          return .err

/-- `data_dirty` after a round. -/
def Ret.join : Ret → Ret → Ret
  | .dirty, .ok => .dirty
  | _, r => r

/-- The loop of `scsi_swap_core_read`: `n` rounds from round `i` on. -/
def coreReadLoop (E : Env) (start : ℕ) (bad : ℤ) :
    ℕ → ℕ → ℕ → ℕ → (ℕ → Sector) → SwapM (Ret × (ℕ → Sector))
  | 0, _, _, _, buf => return (.ok, buf)
  | n + 1, i, count, off, buf => do
    let g := segAt start i count off
    let (r, buf) ← coreReadBlock E bad g buf
    if r = .err then return (.err, buf)
    else
      let (r', buf) ← coreReadLoop E start bad n (i + 1) (count - g.sCount) (off + g.sCount) buf
      return (r.join r', buf)

/-- The loop of `scsi_swap_core_write`. -/
def coreWriteLoop (E : Env) (start : ℕ) (bad : ℤ) (buf : ℕ → Sector) : ℕ → ℕ → ℕ → ℕ → SwapM Ret
  | 0, _, _, _ => return .ok
  | n + 1, i, count, off => do
    let g := segAt start i count off
    let r ← coreWriteBlock E bad g buf
    if r = .err then return .err
    else
      let r' ← coreWriteLoop E start bad buf n (i + 1) (count - g.sCount) (off + g.sCount)
      return r.join r'

def userInc : SwapM Unit := modify fun s => { s with core := { s.core with user := s.core.user + 1 } }
def userDec : SwapM Unit := modify fun s => { s with core := { s.core with user := s.core.user - 1 } }

/-- `scsi_swap_core_read`: its return value and the buffer it leaves. -/
def scsiSwapCoreRead (E : Env) (start count bad : ℕ) (buf : ℕ → Sector) : SwapM (Ret × (ℕ → Sector)) := do
  let s ← get
  if s.core.deviceDead ≠ 0 then return (.err, buf)
  else
    userInc
    let n := (getSwapBlockCount start (s32 count)).toNat
    let r ← coreReadLoop E start (badIndex bad) n 0 count 0 buf
    userDec
    return r

/-- `scsi_swap_core_write`: its return value. -/
def scsiSwapCoreWrite (E : Env) (start count bad : ℕ) (buf : ℕ → Sector) : SwapM Ret := do
  let s ← get
  if s.core.deviceDead ≠ 0 then return .err
  else
    userInc
    let n := (getSwapBlockCount start (s32 count)).toNat
    let r ← coreWriteLoop E start (badIndex bad) buf n 0 count 0
    userDec
    return r

end ScsiSwap
