import ScsiSwap.Spec.Device

/-!
# `sd.c`: capacity and ordinary commands

The disk driver decides two things for the swap code: how large the disk appears
(`sd_read_capacity` keeps the reserve out of it) and how ordinary requests address it
(`sd_prep_fn`). `sector_t` has 64 bits. What a READ CAPACITY command comes back with, after its
retries, is an input. Requests that are not reads or writes, and the 32-byte commands for disks
formatted with protection information of type 2, are not modelled.
-/

namespace ScsiSwap

open ByteCodec

/-! ## State -/

/-- What a device and its host are like. -/
structure SdAttrs where
  /-- `scsi_device_can_swap`: the host adapter is in `swap_filter_table`. -/
  canSwap : Bool
  /-- `sd_try_rc16_first`. -/
  tryRc16First : Bool
  noReadCapacity16 : Bool
  removable : Bool
  fixCapacity : Bool
  guessCapacity : Bool
  online : Bool
  changed : Bool
  writeable : Bool
  lastSectorBug : Bool
  /-- `SD_LAST_BUGGY_SECTORS`. -/
  lastBuggySectors : ℕ
  use10ForRw : Bool
  /-- `scsi_device_protection`. -/
  protection : Bool
  /-- `scsi_host_dif_capable`: protection information of type 1 or 3 that the host can handle. -/
  hostDif : Bool

/-- What the driver keeps: `capacity` and `firstScan` of `struct scsi_disk`, `sectorSize` and
`use16ForRw` of `struct scsi_device`, and the capacity of the `gendisk`. -/
structure SdDisk where
  capacity : ℕ
  firstScan : Bool
  sectorSize : ℕ
  use16ForRw : Bool
  gdCapacity : ℕ
  deriving DecidableEq

/-- The defaults `sd_probe_async` sets. -/
def SdDisk.probed : SdDisk := ⟨0, true, 512, false, 0⟩

/-! ## `sd_read_capacity` -/

/-- The outcome of READ CAPACITY(16). -/
inductive Rc16Answer where
  | ok (lba : BitVec 64) (sectorSize : BitVec 32)
  /-- The command or its field is unknown to the device. -/
  | illegal
  | noMedia
  | failed
  /-- The device is formatted with an unsupported type of protection. -/
  | badProtection

/-- The outcome of READ CAPACITY(10). -/
inductive Rc10Answer where
  | ok (lba : BitVec 32) (sectorSize : BitVec 32)
  | noMedia
  | failed

/-- What the device has to say in one `sd_read_capacity`. -/
structure RcAnswers where
  rc16 : Rc16Answer
  rc10 : Rc10Answer

def eINVAL : ℤ := 22
def eNODEV : ℤ := 19
def eOVERFLOW : ℤ := 75

/-- `set_media_not_present`, as far as the capacity goes. -/
def setMediaNotPresent (q : SdAttrs) (d : SdDisk) : SdDisk := if q.removable then { d with capacity := 0 } else d

/-- `read_capacity_16`: its return value, and the disk. -/
def readCapacity16 (q : SdAttrs) (a : Rc16Answer) (d : SdDisk) : ℤ × SdDisk :=
  if q.noReadCapacity16 then (-eINVAL, d)
  else match a with
    | .noMedia => (-eNODEV, setMediaNotPresent q d)
    | .illegal => (-eINVAL, d)
    | .failed => (-eINVAL, { d with capacity := 0 })
    | .badProtection => (-eNODEV, { d with capacity := 0 })
    | .ok lba sectorSize => (s32 sectorSize.toNat, { d with capacity := u64 (lba.toNat + 1) })

/-- `read_capacity_10`. -/
def readCapacity10 (q : SdAttrs) (a : Rc10Answer) (d : SdDisk) : ℤ × SdDisk :=
  match a with
  | .noMedia => (-eNODEV, setMediaNotPresent q d)
  | .failed => (-eINVAL, { d with capacity := 0 })
  | .ok lba sectorSize =>
    if q.noReadCapacity16 ∧ lba.toNat = 0xffffffff then (s32 sectorSize.toNat, { d with capacity := 0 })
    else (s32 sectorSize.toNat, { d with capacity := lba.toNat + 1 })

/-- The capacity of a device that reports, or may report, one block too many. -/
def adjustCapacity (q : SdAttrs) (capacity : ℕ) : ℕ :=
  if q.fixCapacity ∨ (q.guessCapacity ∧ capacity % 2 = 1) then u64 (capacity - 1) else capacity

/-- `sd_read_capacity`, up to the label `got_data`: the sector size found, if it gets there. -/
def sdReadSize (q : SdAttrs) (a : RcAnswers) (d : SdDisk) : Option ℤ × SdDisk :=
  if q.tryRc16First then
    let (size, d) := readCapacity16 q a.rc16 d
    if size = -eOVERFLOW then (some size, d)
    else if size = -eNODEV then (none, d)
    else if size < 0 then
      let (size, d) := readCapacity10 q a.rc10 d
      if size < 0 then (none, d) else (some size, { d with capacity := adjustCapacity q d.capacity })
    else (some size, { d with capacity := adjustCapacity q d.capacity })
  else
    let (size, d) := readCapacity10 q a.rc10 d
    if size = -eOVERFLOW then (some size, d)
    else if size < 0 then (none, d)
    else if 0xffffffff < d.capacity then
      let (size16, d) := readCapacity16 q a.rc16 d
      if size16 < 0 then (some size, { d with capacity := 0xffffffff + 1 })
      else (some size16, { d with capacity := adjustCapacity q d.capacity })
    else (some size, { d with capacity := adjustCapacity q d.capacity })

/-- `scsi_get_reserve_sectors_for_swap`. -/
def scsiGetReserveSectorsForSwap (q : SdAttrs) : ℕ := if q.canSwap then maxReservedSector else 0

/-- A sector size the driver supports: 0 is taken for 512. -/
def supportedSize (size : ℤ) : Option ℕ :=
  if size = 0 ∨ size = 512 then some 512
  else if size = 1024 then some 1024
  else if size = 2048 then some 2048
  else if size = 4096 then some 4096
  else if size = 256 then some 256
  else none

/-- A capacity in blocks of `sectorSize` bytes, in sectors of 512 bytes. -/
def rescale (sectorSize capacity : ℕ) : ℕ :=
  if sectorSize = 4096 then u64 (capacity * 8)
  else if sectorSize = 2048 then u64 (capacity * 4)
  else if sectorSize = 1024 then u64 (capacity * 2)
  else if sectorSize = 256 then capacity / 2
  else capacity

/-- Keep the reserve out of a capacity that was not the disk's before. -/
def reserveForSwap (q : SdAttrs) (firstScan : Bool) (oldCapacity capacity : ℕ) : ℕ :=
  if firstScan ∨ oldCapacity ≠ capacity then
    if scsiGetReserveSectorsForSwap q ≠ 0 ∧ scsiGetReserveSectorsForSwap q < capacity then
      capacity - scsiGetReserveSectorsForSwap q
    else capacity
  else capacity

/-- The capacity in blocks and their size, once the size is known: a disk with unsupported
blocks appears empty. -/
def checkSize (size : ℤ) (capacity : ℕ) : ℕ × ℕ :=
  match supportedSize size with
  | some sectorSize => (sectorSize, capacity)
  | none => (512, 0)

/-- `sd_read_capacity`, from `got_data` on. -/
def gotData (q : SdAttrs) (oldCapacity : ℕ) (size : ℤ) (d : SdDisk) : SdDisk :=
  let r := checkSize size d.capacity
  { d with
    use16ForRw := decide (0xffffffff < r.2)
    capacity := reserveForSwap q d.firstScan oldCapacity (rescale r.1 r.2)
    sectorSize := r.1 }

/-- `sd_read_capacity`. -/
def sdReadCapacity (q : SdAttrs) (a : RcAnswers) (d : SdDisk) : SdDisk :=
  match sdReadSize q a d with
  | (none, d) => d
  | (some size, d') => gotData q d.capacity size d'

/-- `sd_revalidate_disk` on a disk that is online and has a medium. -/
def sdRevalidateDisk (q : SdAttrs) (a : RcAnswers) (d : SdDisk) : SdDisk :=
  let d := sdReadCapacity q a d
  { d with firstScan := false, gdCapacity := d.capacity }

/-! ## Command blocks -/

/-- A command block of up to 16 bytes. -/
abbrev Cdb : Type := Fin 16 → Byte

def opRead6 : ℕ := 0x08
def opWrite6 : ℕ := 0x0a
def opRead12 : ℕ := 0xa8
def opWrite12 : ℕ := 0xaa
def opRead16 : ℕ := 0x88
def opWrite16 : ℕ := 0x8a

def cdb6 (op block count : ℕ) : Cdb :=
  ![.ofNat 8 op, .ofNat 8 ((block >>> 16) % 32), .ofNat 8 (block >>> 8), .ofNat 8 block, .ofNat 8 count, 0,
    0, 0, 0, 0, 0, 0, 0, 0, 0, 0]

def cdb10 (op flags block count : ℕ) : Cdb :=
  ![.ofNat 8 op, .ofNat 8 flags, .ofNat 8 (block >>> 24), .ofNat 8 (block >>> 16), .ofNat 8 (block >>> 8),
    .ofNat 8 block, 0, .ofNat 8 (count >>> 8), .ofNat 8 count, 0, 0, 0, 0, 0, 0, 0]

def cdb16 (op flags block count : ℕ) : Cdb :=
  ![.ofNat 8 op, .ofNat 8 flags, .ofNat 8 (block >>> 56), .ofNat 8 (block >>> 48), .ofNat 8 (block >>> 40),
    .ofNat 8 (block >>> 32), .ofNat 8 (block >>> 24), .ofNat 8 (block >>> 16), .ofNat 8 (block >>> 8),
    .ofNat 8 block, .ofNat 8 (count >>> 24), .ofNat 8 (count >>> 16), .ofNat 8 (count >>> 8),
    .ofNat 8 count, 0, 0]

/-- The command block of `hd_read_sector` and `hd_write_sector`, padded. -/
def hdCmnd (op sector secNum : ℕ) : Cdb :=
  fun i => if h : i.val < 10 then hdCdb op sector secNum ⟨i, h⟩ else 0

/-- `sector_from_scmd`: the first block and the number of blocks of a command. -/
def sectorFromScmd (c : Cdb) : ℕ × ℕ :=
  if (c 0).toNat = opRead6 ∨ (c 0).toNat = opWrite6 then
    ((c 1).toNat % 32 * 2 ^ 16 + (c 2).toNat * 2 ^ 8 + (c 3).toNat, (c 4).toNat)
  else if (c 0).toNat = opRead10 ∨ (c 0).toNat = opWrite10 then
    ((c 2).toNat * 2 ^ 24 + (c 3).toNat * 2 ^ 16 + (c 4).toNat * 2 ^ 8 + (c 5).toNat,
      (c 7).toNat * 2 ^ 8 + (c 8).toNat)
  else if (c 0).toNat = opRead12 ∨ (c 0).toNat = opWrite12 then
    ((c 2).toNat * 2 ^ 24 + (c 3).toNat * 2 ^ 16 + (c 4).toNat * 2 ^ 8 + (c 5).toNat,
      (c 6).toNat * 2 ^ 24 + (c 7).toNat * 2 ^ 16 + (c 8).toNat * 2 ^ 8 + (c 9).toNat)
  else if (c 0).toNat = opRead16 ∨ (c 0).toNat = opWrite16 then
    (((c 2).toNat * 2 ^ 24 + (c 3).toNat * 2 ^ 16 + (c 4).toNat * 2 ^ 8 + (c 5).toNat) * 2 ^ 32 +
      ((c 6).toNat * 2 ^ 24 + (c 7).toNat * 2 ^ 16 + (c 8).toNat * 2 ^ 8 + (c 9).toNat),
      (c 10).toNat * 2 ^ 24 + (c 11).toNat * 2 ^ 16 + (c 12).toNat * 2 ^ 8 + (c 13).toNat)
  else (0, 0)

/-- `cmnd[0]`. -/
def opcode (c : Cdb) : ℕ := (c 0).toNat

/-! ## `sd_prep_fn` -/

/-- A read or write request of the block layer. -/
structure FsRequest where
  isWrite : Bool
  /-- `blk_rq_pos`. -/
  pos : BitVec 64
  /-- `blk_rq_sectors`. -/
  sectors : BitVec 32
  fua : Bool

/-- Where the last sectors begin that some devices cannot access together with others. -/
def SdDisk.threshold (q : SdAttrs) (d : SdDisk) : ℕ :=
  u64 (d.gdCapacity - q.lastBuggySectors * (d.sectorSize / 512 : ℕ))

/-- The number of 512-byte sectors the command is for. -/
def thisCount (q : SdAttrs) (d : SdDisk) (rq : FsRequest) : ℕ :=
  if q.lastSectorBug ∧ d.threshold q < u64 (rq.pos.toNat + rq.sectors.toNat) then
    if rq.pos.toNat < d.threshold q then u32 (d.threshold q - rq.pos.toNat) else d.sectorSize / 512
  else rq.sectors.toNat

/-- A request for a device with blocks of `2 ^ k` sectors must start and end at block boundaries. -/
def inBlocks (k : ℕ) (rq : FsRequest) (count : ℕ) : Option (ℕ × ℕ) :=
  if rq.pos.toNat % 2 ^ k ≠ 0 ∨ rq.sectors.toNat % 2 ^ k ≠ 0 then none
  else some (rq.pos.toNat >>> k, count >>> k)

/-- The first block and the number of blocks, in the device's blocks. -/
def deviceRange (sectorSize : ℕ) (rq : FsRequest) (count : ℕ) : Option (ℕ × ℕ) :=
  if sectorSize = 1024 then inBlocks 1 rq count
  else if sectorSize = 2048 then inBlocks 2 rq count
  else if sectorSize = 4096 then inBlocks 3 rq count
  else some (rq.pos.toNat, count)

/-- The command for `count` blocks from `block` on, in the shortest form that is allowed. -/
def rwCommand (q : SdAttrs) (d : SdDisk) (rq : FsRequest) (block count : ℕ) : Option Cdb :=
  let flags := (if q.hostDif then 1 <<< 5 else 0) ||| (if rq.fua then 8 else 0)
  if d.use16ForRw then some (cdb16 (if rq.isWrite then opWrite16 else opRead16) flags block count)
  else if 0xff < count ∨ 0x1fffff < block ∨ q.protection ∨ q.use10ForRw then
    some (cdb10 (if rq.isWrite then opWrite10 else opRead10) flags block (min count 0xffff))
  else if rq.fua then none
  else some (cdb6 (if rq.isWrite then opWrite6 else opRead6) block count)

/-- `sd_prep_fn`: the command block for a request, or `none` for `BLKPREP_KILL`. -/
def sdPrepFn (q : SdAttrs) (d : SdDisk) (rq : FsRequest) : Option Cdb :=
  if !q.online ∨ d.gdCapacity < u64 (rq.pos.toNat + rq.sectors.toNat) then none
  else if q.changed then none
  else match deviceRange d.sectorSize rq (thisCount q d rq) with
    | none => none
    | some (block, count) => if rq.isWrite ∧ !q.writeable then none else rwCommand q d rq block count

end ScsiSwap
