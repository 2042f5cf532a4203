import ScsiSwap.Spec.Device

/-!
# `ring.h` and `log.c`

The log of created mappings: a ring of 512 items in memory, written through to the log
area of the reserve one sector and one head at a time.
-/

namespace ScsiSwap

open ByteCodec

/-! ## The ring -/

namespace Cspring

variable {α : Type}

/-- `cspring_update`. -/
def update (r : Cspring α) : Cspring α :=
  let r := if r.itemNum > r.itemCap then { r with itemNum := r.itemCap } else r
  let r := if r.itemNext ≥ r.itemCap then { r with itemNext := 0 } else r
  if r.itemNum ≤ 0 then { r with itemNext := 0 } else r

/-- What `cspring_create` makes of its two pieces of memory; `stale` is what the buffer holds. -/
def create (itemSize itemCap : ℤ) (stale : ℕ → α) : Cspring α := ⟨itemCap, itemSize, 0, 0, stale⟩

/-- `cspring_size`: the size of the buffer in bytes, an `int`. -/
def size (r : Cspring α) : ℤ := s32 (r.itemCap * r.itemSize)

/-- The slots that exist, as far as the buffer goes; any other index is outside of it. -/
def inBuffer (r : Cspring α) (index : ℤ) : Bool :=
  0 ≤ index ∧ index < r.itemCap ∧ (index + 1) * r.itemSize ≤ r.size

/-- `cspring_push`: the slot written, and the ring after it. -/
def push (r : Cspring α) (x : α) : Option (ℕ × Cspring α) :=
  if r.inBuffer r.itemNext then
    let slot := r.itemNext.toNat
    some (slot, update { r with
      buffer := Function.update r.buffer slot x
      itemNext := s32 (r.itemNext + 1)
      itemNum := s32 (r.itemNum + 1) })
  else none

/-- `cspring_get_pop_index`. -/
def popIndex (r : Cspring α) : ℤ := (s32 (s32 (r.itemNext - r.itemNum) + r.itemCap)).tmod r.itemCap

/-- `cspring_peek`. -/
def peek (r : Cspring α) (index : ℤ) : Option α :=
  let i := (s32 (r.popIndex + index)).tmod r.itemCap
  if r.inBuffer i then some (r.buffer i.toNat) else none

end Cspring

/-! ## `log.c` -/

/-- `LOG_MAX_SECTOR_NUM * LOG_COUNT_PER_SECTOR`. -/
abbrev logItemCap : ℕ := 32 * 16

/-- `scsi_swap_log_peek`: `none` is the null pointer; a slot outside the buffer kills the
kernel. -/
def scsiSwapLogPeek (r : Cspring LogItem) (index : ℤ) : SwapM (Option LogItem) :=
  if index < 0 ∨ index ≥ r.itemNum then return none
  else match r.peek index with
    | none => oops
    | some item => return some item

/-- `scsi_swap_log_last`. -/
def scsiSwapLogLast (r : Cspring LogItem) : SwapM (Option LogItem) :=
  if r.itemNum = 0 then return none else scsiSwapLogPeek r (r.itemNum - 1)

/-- `scsi_swap_log_item_init`. The checksum is taken before the last fields are set. -/
def scsiSwapLogItemInit (E : Env) (r : Cspring LogItem) (type result : BitVec 8) (src dst : BitVec 64)
    (count : BitVec 16) : SwapM LogItem := do
  let s ← get
  let last ← scsiSwapLogLast r
  let item : LogItem :=
    { crc := 0, time := E.clock s.tick, secSrc := 0, secDst := 0, secCount := 0, type := 0, result := 0
      rebootCount := (last.map (·.rebootCount)).getD 0, fixCount := (last.map (·.fixCount)).getD 0
      currCount := (last.map (·.currCount)).getD 0 + 1, reserved := 0 }
  return { item with
    crc := item.crcItem, secSrc := src, secDst := dst, secCount := count, type := type, result := result }

/-- The byte at an address of the ring buffer. -/
def ringByte (r : Cspring LogItem) (addr : ℕ) : Byte :=
  (r.buffer (addr / 32)).bytes ⟨addr % 32, Nat.mod_lt _ (by decide)⟩

/-- `scsi_swap_log_update_data`: push the item and write 512 bytes of the buffer, from byte
`i_sector` on, to sector `i_sector` of the log data. -/
def scsiSwapLogUpdateData (E : Env) (r : Cspring LogItem) (item : LogItem) : SwapM Bool := do
  match r.push item with
  | none => oops
  | some (slot, r') =>
    modify fun s => { s with log := { s.log with ring := some r' } }
    let iSector := slot * 32 / 512
    let s ← get
    hdWriteSectorNoRetry E .log (s.log.sectorData + iSector) 1 (fun _ i => ringByte r' (iSector + i))

/-- `scsi_swap_log_update_head`. -/
def scsiSwapLogUpdateHead (E : Env) : SwapM Bool := do
  let s ← get
  match s.log.ring with
  | none => oops
  | some r =>
    let head : LogHead :=
      { s.log.head with itemNum := .ofInt 16 r.itemNum, itemNext := .ofInt 16 r.itemNext }
    let head := { head with crc := head.crcHead }
    set { s with log := { s.log with head := head } }
    hdWriteSectorNoRetry E .log s.log.sectorHead 1 (fun _ => head.sector)

/-- `scsi_swap_log_push`. -/
def scsiSwapLogPush (E : Env) (type result : BitVec 8) (src dst : BitVec 64) (count : BitVec 16) :
    SwapM Bool := do
  let s ← get
  match s.log.ring with
  | none => oops
  | some r =>
    let item ← scsiSwapLogItemInit E r type result src dst count
    if ← scsiSwapLogUpdateData E r item then
      scsiSwapLogUpdateHead E
    else return false

/-- The log items held by the sectors of the log data. -/
def logItemsOf (sectors : ℕ → Sector) (k : ℕ) : LogItem :=
  LogItem.ofBytes (chunkEquiv 16 32 (sectors (k / 16)) ⟨k % 16, Nat.mod_lt _ (by decide)⟩)

/-- `scsi_swap_log_load`. -/
def scsiSwapLogLoad (E : Env) (r : Cspring LogItem) : SwapM Bool := do
  let s ← get
  let (ok, buf) ← hdReadSectorNoRetry E s.log.sectorHead 1
  if ok then
    let head := LogHead.ofSector ((buf 0).getD zeroSector)
    modify fun s => { s with log := { s.log with head := head } }
    if head.crc = head.crcHead then
      let (ok, buf) ← hdReadSectorNoRetry E s.log.sectorData 32
      let items := fun k => if k < logItemCap ∧ (buf (k / 16)).isSome then
          logItemsOf (fun i => (buf i).getD zeroSector) k
        else r.buffer k
      modify fun s => { s with log := { s.log with ring := some { r with buffer := items } } }
      return ok
    else return false
  else return false

/-- `scsi_swap_log_init`. Two allocations stand behind `cspring_create`; without them the
ring stays the null pointer. -/
def scsiSwapLogInit (E : Env) (head data : ℕ) : SwapM Bool := do
  let a ← kmalloc E
  let b ← (if a then kmalloc E else pure false : SwapM Bool)
  if b then
    let r : Cspring LogItem := .create 32 logItemCap E.stale
    modify fun s => { s with log := { s.log with ring := some r, sectorHead := head, sectorData := data } }
    if ← scsiSwapLogLoad E r then
      modify fun s => { s with log := { s.log with
        ring := s.log.ring.map fun r => { r with
          itemNum := s.log.head.itemNum.toNat, itemNext := s.log.head.itemNext.toNat } } }
      return true
    else return false
  else
    modify fun s => { s with log := { s.log with ring := none } }
    return false

end ScsiSwap
