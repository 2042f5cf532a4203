import ScsiSwap.Spec.Session

/-!
# `swap.c`, and its hooks in `blk-core.c`

A bio comes to the swap code in one of two ways. `generic_make_request` diverts it if one of its
blocks is mapped; `req_bio_endio` hands it over when it is complete and has failed. Either way
`swap_bio` makes a work item of it, and `swap_bio_work_handler` serves that with
`scsi_swap_core_read` or `scsi_swap_core_write`.
-/

namespace ScsiSwap

open ByteCodec

def eio : ℤ := 5

/-- `(sector_t)-1`: no sector is known to be bad. -/
def noBadSec : ℕ := 2 ^ 64 - 1

/-- `struct bio`: `bi_sector`, `bi_size` and the flag `BIO_UPTODATE`. Its data is passed to the
functions that use it. -/
structure Bio where
  isWrite : Bool
  sector : ℕ
  size : ℕ
  uptodate : Bool
  deriving DecidableEq

/-- `bio_sectors`. -/
def Bio.sectors (bio : Bio) : ℕ := bio.size >>> 9

/-- The device of a bio. -/
structure Bdev where
  /-- It belongs to a SCSI device. -/
  isSdev : Bool
  removable : Bool
  changed : Bool
  /-- `swap->enable`. -/
  enable : Bool
  /-- The first sector of the partition, 0 for the whole disk. -/
  startSect : ℕ
  /-- The sizes of the partition and of the disk, in sectors. -/
  partSectors : ℕ
  diskSectors : ℕ

/-- A swap-enabled disk of `n` sectors, as a whole. -/
def Bdev.disk (n : ℕ) : Bdev := ⟨true, false, false, true, 0, n, n⟩

/-- `bio_get_scsi_swap`: whether it finds one. -/
def bioGetScsiSwap (b : Bdev) : Bool := b.isSdev && !b.removable && !b.changed && b.enable

/-- `scsi_swap_core_can_swap`. It does not look at the length. -/
def World.scsiSwapCoreCanSwap (s : World) (sector : ℕ) (_num : ℤ) : Bool :=
  s.core.deviceDead = 0 ∧ sector < s.core.sectorReserveStart

/-- `struct swap_bio_item`, less the pointers and `may_create`, which nothing reads. -/
structure SwapBioItem where
  startSec : ℕ
  size : ℤ
  badSec : ℕ
  deriving DecidableEq

/-- `swap_bio`: the item it queues, if it returns true. -/
def swapBio (E : Env) (b : Bdev) (bio : Bio) (sector : ℕ) (size : ℤ) (badSec : ℕ) (error : ℤ) :
    SwapM (Option SwapBioItem) := do
  if error ≠ -eio then return none
  else if !bio.isWrite ∧ badSec ≠ noBadSec then return none
  else if !bioGetScsiSwap b then return none
  else
    let s ← get
    if !s.scsiSwapCoreCanSwap sector size then return none
    else if ← kmalloc E then return some ⟨sector, size, badSec⟩
    else return none

/-- The call of `core.c` that the handler makes for an item. -/
def SwapBioItem.request (item : SwapBioItem) (bio : Bio) (buf : ℕ → Sector) : Request :=
  ⟨bio.isWrite, item.startSec, item.size.toNat >>> 9, item.badSec, buf⟩

/-- `swap_bio_work_handler`, for a bio with data `buf`: the error the bio is ended with, and its
data after a read. A negative size is more than `kmalloc` can give. -/
def swapBioWorkHandler (E : Env) (item : SwapBioItem) (bio : Bio) (buf : ℕ → Sector) :
    SwapM (ℤ × (ℕ → Sector)) := do
  let ok ← kmalloc E
  if ok ∧ 0 ≤ item.size then
    let a ← (item.request bio buf).serve E
    if a.ret = .err then return (-eio, buf) else return (0, a.buf)
  else return (-eio, buf)

/-- `bio_has_bad_block`. -/
def World.bioHasBadBlock (s : World) (b : Bdev) (bio : Bio) : Bool :=
  bioGetScsiSwap b && s.didBlockSwapped bio.sector bio.sectors

/-! ## The data of a bio -/

/-- `struct bio_vec`: the `bv_len` bytes from `bv_offset` on, and whether the page has an address, by
`page_address` or else by `kmap_atomic`. -/
structure BioVec where
  bytes : List Byte
  mapped : Bool

/-- `memcpy` to byte `p` of a buffer. `none` is a byte that nothing has been written to. -/
def memcpy (buf : ℕ → Option Byte) (p : ℕ) (bytes : List Byte) : ℕ → Option Byte :=
  fun k => if p ≤ k ∧ k < p + bytes.length then bytes[k - p]? else buf k

/-- The loop of `bio_fill_buf` over the segments, `p` bytes into the buffer. The guard compares where a segment
starts with the length of the buffer; nothing looks at where it ends. -/
def bioFillBufFrom (len : ℤ) : List BioVec → ℕ → (ℕ → Option Byte) → ℕ → Option Byte
  | [], _, buf => buf
  | v :: vs, p, buf =>
    if (p : ℤ) < len then bioFillBufFrom len vs (p + v.bytes.length)
      (if v.mapped then memcpy buf p v.bytes else buf)
    else bioFillBufFrom len vs p buf

/-- `bio_fill_buf`, into a buffer that comes from `kmalloc`. -/
def bioFillBuf (vecs : List BioVec) (len : ℤ) : ℕ → Option Byte := bioFillBufFrom len vecs 0 fun _ => none

/-- The buffer `swap_bio_work_handler` fills for a write bio with the segments `vecs`. -/
def SwapBioItem.buffer (item : SwapBioItem) (vecs : List BioVec) : ℕ → Option Byte := bioFillBuf vecs item.size

/-- A buffer as `core_write` reads it, when `mem` is what `kmalloc` found in the memory it gave. -/
def bufferSectors (mem : ℕ → Byte) (buf : ℕ → Option Byte) : ℕ → Sector :=
  fun k j => (buf (512 * k + j)).getD (mem (512 * k + j))

/-- `swap_bio_work_handler`, for a write bio with the segments `vecs`. -/
def swapBioWriteHandler (E : Env) (item : SwapBioItem) (bio : Bio) (vecs : List BioVec)
    (mem : ℕ → Byte) : SwapM ℤ := do
  let r ← swapBioWorkHandler E item bio (bufferSectors mem (item.buffer vecs))
  return r.1

/-! ## Submission -/

/-- `bio_check_eod`, on a device of `maxsector` sectors: whether the bio ends beyond it. -/
def bioCheckEod (maxsector : ℕ) (bio : Bio) : Bool :=
  bio.sectors ≠ 0 ∧ maxsector ≠ 0 ∧ (maxsector < bio.sectors ∨ maxsector - bio.sectors < bio.sector)

/-- `blk_partition_remap`. -/
def blkPartitionRemap (b : Bdev) (bio : Bio) : Bio :=
  if bio.sectors ≠ 0 then { bio with sector := bio.sector + b.startSect } else bio

/-- Where a submitted bio goes. -/
inductive Route where
  /-- To the swap worker. -/
  | diverted (item : SwapBioItem)
  | ended (error : ℤ)
  /-- To the request queue of the disk. -/
  | queued (bio : Bio)

/-- `generic_make_request`. Of the checks of `generic_make_request_checks`, those of the range are
modelled. -/
def genericMakeRequest (E : Env) (b : Bdev) (bio : Bio) : SwapM Route := do
  let s ← get
  if s.bioHasBadBlock b bio then
    match ← swapBio E b bio bio.sector (s32 bio.size) noBadSec (-eio) with
    | some item => return .diverted item
    | none => return .ended (-eio)
  else if bioCheckEod b.partSectors bio then return .ended (-eio)
  else
    let bio := blkPartitionRemap b bio
    if bioCheckEod b.diskSectors bio then return .ended (-eio) else return .queued bio

/-! ## Completion -/

/-- A call of `req_bio_endio`, and what it reads of the request. -/
structure EndCall where
  nbytes : ℕ
  error : ℤ
  /-- `blk_rq_pos`. -/
  pos : ℕ

/-- What has become of a bio. -/
inductive Outcome where
  | pending
  /-- To the swap worker. -/
  | handed (item : SwapBioItem)
  | ended (error : ℤ)
  deriving DecidableEq

/-- `req_bio_endio`, for a request that is not part of a flush sequence. -/
def reqBioEndio (E : Env) (b : Bdev) (bio : Bio) (c : EndCall) : SwapM (Bio × Outcome) := do
  let uptodate := bio.uptodate && decide (c.error = 0)
  let error := if c.error = 0 ∧ !bio.uptodate then -eio else c.error
  let nbytes := min c.nbytes bio.size
  let bio' := { bio with uptodate := uptodate, size := bio.size - nbytes, sector := bio.sector + nbytes >>> 9 }
  if bio'.size = 0 then
    match ← swapBio E b bio' bio.sector (s32 bio.size) c.pos error with
    | some item => return (bio', .handed item)
    | none => return (bio', .ended error)
  else return (bio', .pending)

/-- Calls for one bio, until it is complete. -/
def endCalls (E : Env) (b : Bdev) : List EndCall → Bio → SwapM (Bio × Outcome)
  | [], bio => return (bio, .pending)
  | c :: cs, bio => do
    match ← reqBioEndio E b bio c with
    | (bio, .pending) => endCalls E b cs bio
    | r => return r

end ScsiSwap
