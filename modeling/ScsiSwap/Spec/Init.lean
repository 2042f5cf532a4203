import ScsiSwap.Spec.Core

/-!
# `core.c`: finding or creating the head, loading the table, start and stop

`scsiSwapInit` is the part of `scsi_swap_init` (`swap.c`) that concerns the core and the
log: it starts from a zeroed handler.
-/

namespace ScsiSwap

open ByteCodec

/-! ## The head -/

/-- `swap_check_block_by_sector`: write zeros sector by sector; the index of the first bad
sector, or `none` if there is none. -/
def swapCheckBlockBySector (E : Env) (secStart : ℕ) : ℕ → ℕ → SwapM (Option ℕ)
  | 0, _ => return none
  | n + 1, i => do
    if ← hdWriteSectorRetry E .head (secStart + i) 1 (fun _ => zeroSector) then
      swapCheckBlockBySector E secStart n (i + 1)
    else return some i

def World.setHead (s : World) (h : SwapHead) : World := { s with core := { s.core with head := h } }

/-- `_swap_create_new_head`. -/
def swapCreateNewHead' (E : Env) : SwapM Bool := do
  modify fun s => s.setHead { s.core.head with
    headString := strncpy s.core.head.headString swapHeadString 16
    version := strncpy s.core.head.version swapVersion 4 }
  flushSwapHead E

/-- What `swap_create_new_head` does with a block whose sector `badIdx` is bad: with sector 0
damaged nothing, otherwise sector 0 is marked invalid. -/
def markInvalid (E : Env) (badIdx : ℕ) : SwapM Unit :=
  if badIdx ≠ 0 then do
    modify fun s => s.setHead { s.core.head with status := strncpy s.core.head.status strInvalid 7 }
    let _ ← swapCreateNewHead' E
  else return ()

/-- The loop of `swap_create_new_head`, with `n` candidate blocks left. -/
def createHeadLoop (E : Env) : ℕ → SwapM Bool
  | 0 => return false
  | n + 1 => do
    let s ← get
    match ← swapCheckBlockBySector E s.core.sectorHead 128 0 with
    | none =>
      modify fun s => s.setHead { s.core.head with status := strncpy s.core.head.status strValid 5 }
      swapCreateNewHead' E
    | some badIdx =>
      markInvalid E badIdx
      modify fun s => { s.setHead { s.core.head with status := fun _ => 0 } with
        core.sectorHead := s.core.sectorHead + 128 }
      createHeadLoop E n

/-- `swap_create_new_head`. -/
def swapCreateNewHead (E : Env) : SwapM Bool := do
  modify fun s => s.setHead SwapHead.zero
  createHeadLoop E maxSwapHeadBlockNum

/-- `swap_get_head_state`, with what it leaves in the buffer that held `old`. -/
def swapGetHeadState (E : Env) (sector : ℕ) (old : SwapHead) : SwapM (HeadState × SwapHead) := do
  let (ok, buf) ← hdReadSectorRetry E sector 1
  let head := swapHeadEquiv.symm ((buf 0).getD (swapHeadEquiv old))
  return (if ok then head.state else .fail, head)

/-- Write the backup head anew from a good master, unless it is good too. -/
def repairBackup (E : Env) (secStart : ℕ) (head : SwapHead) (stBack : HeadState) : SwapM Unit :=
  if stBack ≠ .ok then do
    let _ ← hdWriteSectorRetry E .head (secStart + swapHeadBackupOffest) 1 (fun _ => swapHeadEquiv head)
  else return ()

/-- The loop of `init_swap_head`: `n` blocks left, from sector `secStart` on. -/
def initHeadLoop (E : Env) : ℕ → ℕ → SwapM Bool
  | 0, _ => do
    deviceDeadInc
    return false
  | n + 1, secStart => do
    let s ← get
    let (st, head) ← swapGetHeadState E secStart s.core.head
    modify fun s => s.setHead head
    if st = .invalid then initHeadLoop E n (secStart + 128)
    else
      let (stBack, headBack) ← swapGetHeadState E (secStart + swapHeadBackupOffest) SwapHead.zero
      if st = .fail ∧ stBack = .fail then initHeadLoop E n (secStart + 128)
      else if st = .ok then
        repairBackup E secStart head stBack
        modify fun s => { s with core.sectorHead := secStart }
        return true
      else if stBack = .ok then
        modify fun s => s.setHead headBack
        let _ ← hdWriteSectorRetry E .head secStart 1 (fun _ => swapHeadEquiv headBack)
        modify fun s => { s with core.sectorHead := secStart }
        return true
      else if ← swapCreateNewHead E then return true
      else
        deviceDeadInc
        return false

/-- `init_swap_head`. -/
def initSwapHead (E : Env) (start : ℕ) : SwapM Bool := initHeadLoop E maxSwapHeadBlockNum start

/-! ## The table -/

/-- The test both scans of the table make of an entry. -/
def SwapTable.valid (t : SwapTable) : Bool := t.secSize = 128 ∧ t.crc = t.checksum

/-- The number of valid entries at the front of a table sector. -/
def validEntries (s : Sector) : ℕ := ((List.finRange 8).takeWhile fun j => (tableSlots s j).valid).length

/-- `calc_swap_info_num`, with `n` sectors left and `total` entries counted. -/
def calcSwapInfoNum (E : Env) : ℕ → ℕ → ℕ → SwapM ℕ
  | 0, _, total => return total
  | n + 1, start, total => do
    let (ok, buf) ← hdReadSectorRetry E start 1
    if ok then
      let k := validEntries ((buf 0).getD zeroSector)
      if k < 8 then return total + k else calcSwapInfoNum E n (start + 1) (total + 8)
    else calcSwapInfoNum E n (start + 1) total

/-- `alloc_swap_info_data`. -/
def allocSwapInfoData (E : Env) (start num : ℕ) : SwapM (Option Block) := do
  if ← kmalloc E then
    let (ok, buf) ← hdReadSectorRetry E start num
    if ok then return some fun k => (buf k).getD zeroSector else return none
  else return none

/-- How a table slot was dealt with: `return -1`, the end of the table, or a mapping. -/
inductive SlotRes where
  | error
  | stop
  | loaded
  deriving DecidableEq, Repr

/-- One round of the inner loop of `init_swap_info`, with what it leaves in the slot. -/
def loadSlot (E : Env) (t : SwapTable) : SwapM (SlotRes × SwapTable) := do
  if ← kmalloc E then
    let s ← get
    let p := s.brk
    set { s.setInfo p ⟨t, none⟩ with brk := p + 1 }
    if t.secSize ≠ 128 then return (.stop, t)
    else if t.swapSec.toNat < s.core.sectorData ∨ t.srcSec.toNat > s.core.sectorReserveStart then
      return (.error, t)
    else if t.crc ≠ t.checksum then return (.error, t)
    else
      let data ← allocSwapInfoData E t.swapSec.toNat t.secSize.toNat
      modify fun s => s.setInfo p { s.heap p with data := data }
      let ok ← (if data.isSome then pure true else swapRecreate E p : SwapM Bool)
      if ok then
        let s ← get
        set { s with core := { s.core with infoList := s.core.infoList ++ [p], infoNum := s.core.infoNum + 1 } }
        return (.loaded, (s.heap p).table)
      else return (.error, t)
  else return (.error, t)

/-- The inner loop of `init_swap_info` over the slots `js` of the sector in `buffer`. -/
def loadSlots (E : Env) : List (Fin 8) → Sector → SwapM (SlotRes × Sector)
  | [], buffer => return (.loaded, buffer)
  | j :: js, buffer => do
    let (r, t) ← loadSlot E (tableSlots buffer j)
    let buffer := putTable buffer j t
    if r = .loaded then loadSlots E js buffer else return (r, buffer)

/-- `swap_table_sync_e`. -/
inductive TableSync where
  | noNeedSync
  | masterNeedSync
  | backupNeedSync
  deriving DecidableEq, Repr

/-- The loop of `init_swap_info` over the table sectors: `n` sectors left, the next one to
read is `start`, the next one to write in the copy that lags behind is `pos`. -/
def loadTable (E : Env) (sync : TableSync) (limit : ℕ) : ℕ → ℕ → ℕ → SwapM Bool
  | 0, _, _ => return true
  | n + 1, start, pos => do
    let (ok, buf) ← hdReadSectorRetry E start 1
    if ok then
      let (r, buffer) ← loadSlots E (List.finRange 8) ((buf 0).getD zeroSector)
      if r = .error then return false
      else
        let pos ← (if sync = .noNeedSync then pure pos else writeSkip E buffer limit (limit - pos) pos : SwapM ℕ)
        if r = .stop then return true else loadTable E sync limit n (start + 1) pos
    else loadTable E sync limit n (start + 1) pos

/-- `init_swap_info`. -/
def initSwapInfo (E : Env) : SwapM Bool := do
  modify fun s => { s with core := { s.core with infoList := [], infoNum := 0 } }
  let s ← get
  let master := s.core.sectorTable
  let back := s.core.sectorReserveStart + swapTableBackupOffset
  let num ← calcSwapInfoNum E swpaTableNSector master 0
  let numBack ← calcSwapInfoNum E swpaTableNSector back 0
  if numBack > num then
    loadTable E .masterNeedSync (master + swpaTableNSector) swpaTableNSector back master
  else if numBack < num then
    loadTable E .backupNeedSync (back + swpaTableNSector) swpaTableNSector master back
  else if num = 0 then return true
  else loadTable E .noNeedSync 0 swpaTableNSector master 0

/-! ## Start and stop -/

/-- `swap_info_destroy`. -/
def swapInfoDestroy : SwapM Unit := modify fun s => { s with core.infoList := [] }

/-- `scsi_swap_core_init`. -/
def scsiSwapCoreInit (E : Env) (reserveSector : ℕ) : SwapM Bool := do
  modify fun s => { s with core := { s.core with
    sectorReserveStart := reserveSector
    sectorHead := reserveSector + swapHeadOffest
    sectorData := reserveSector + swapDataOffset
    sectorTable := reserveSector + swapTableOffset } }
  if ← initSwapHead E (reserveSector + swapHeadOffest) then
    if ← initSwapInfo E then
      modify fun s => { s with core := { s.core with deviceDead := 0, user := 0 } }
      return true
    else
      swapInfoDestroy
      return false
  else return false

/-- `scsi_swap_core_destroy`, with no request running: nothing to wait for. -/
def scsiSwapCoreDestroy : SwapM Unit := do
  deviceDeadInc
  swapInfoDestroy

/-- A zeroed handler (`kzalloc`). -/
def World.fresh (s : World) : World :=
  { s with
    core := { deviceDead := 0, infoNum := 0, user := 0, head := SwapHead.zero, infoList := []
              sectorReserveStart := 0, sectorHead := 0, sectorTable := 0, sectorData := 0 }
    log := { head := ⟨0, 0, 0⟩, ring := none, sectorHead := 0, sectorData := 0 } }

/-- The core and log part of `scsi_swap_init`. -/
def scsiSwapInit (E : Env) (reserveSector : ℕ) : SwapM Bool := do
  if ← kmalloc E then
    modify World.fresh
    if ← scsiSwapCoreInit E reserveSector then
      let _ ← scsiSwapLogInit E (reserveSector + swapLogHeadOffset) (reserveSector + swapLogDataOffset)
      return true
    else return false
  else return false

end ScsiSwap
