import ScsiSwap.Spec.Format

/-!
# The state of one disk, and `utils.c`

`World` holds what the driver keeps in memory for one disk (`struct swap_handler`, and
the mappings its list points to) together with the contents of the disk. The code runs in
`SwapM`: a state transformer that returns `none` where the kernel would die on a wild
pointer.

Everything the driver does not decide comes from an environment `Env`: for every moment
(`tick`) whether a command succeeds, what a failed command leaves behind, whether memory
is available, what the clock says. Theorems quantify over all environments, so over every
pattern of failures.
-/

namespace ScsiSwap

open ByteCodec

/-! ## State -/

/-- `struct swap_info`, less its list links. `data = none` is the null pointer. -/
structure SwapInfo where
  table : SwapTable
  data : Option Block

/-- `struct scsi_swap_core`. The list holds the addresses of its entries. -/
structure Core where
  deviceDead : ℕ
  infoNum : ℕ
  user : ℕ
  head : SwapHead
  infoList : List ℕ
  sectorReserveStart : ℕ
  sectorHead : ℕ
  sectorTable : ℕ
  sectorData : ℕ

/-- `struct cspring`, with items in place of their bytes. -/
structure Cspring (α : Type) where
  itemCap : ℤ
  itemSize : ℤ
  itemNum : ℤ
  itemNext : ℤ
  buffer : ℕ → α

/-- `struct scsi_swap_log`. `ring = none` is the null pointer. -/
structure Log where
  head : LogHead
  ring : Option (Cspring LogItem)
  sectorHead : ℕ
  sectorData : ℕ

/-- The parts of the driver that write to the disk. -/
inductive Writer where
  /-- The head, its backup, and the search for a place for them. -/
  | head
  | table
  /-- The spare blocks. -/
  | block
  | log
  /-- The sectors of a request themselves. -/
  | user
  deriving DecidableEq, Repr

/-- A write command that was sent, and what the disk held after it. -/
structure Sent where
  writer : Writer
  lba : ℕ
  count : ℕ
  disk : ℕ → Sector

/-- The handler of one disk, the kernel memory it points to (`brk` is the first address
not handed out yet), and the disk, by logical block address. `sent` is a record of the write
commands, the last one first, that nothing in the driver looks at. -/
structure World where
  core : Core
  log : Log
  heap : ℕ → SwapInfo
  brk : ℕ
  disk : ℕ → Sector
  tick : ℕ
  sent : List Sent

/-! ## Environment -/

/-- A READ_10 or WRITE_10 command as the device sees it. -/
structure Cmd where
  lba : ℕ
  count : ℕ
  retries : ℕ

/-- The outcome of a command. A failed write may leave anything in the sectors it was
writing, a failed read anything in the buffer it was filling (`none`: the old contents).
`noConnect`: the host reported `DID_NO_CONNECT` or `DID_BAD_TARGET`. -/
inductive IoResult where
  | ok
  | fail (junk : ℕ → Option Sector) (noConnect : Bool)

def IoResult.isOk : IoResult → Bool
  | .ok => true
  | .fail _ _ => false

/-- What the world outside the driver does, by moment. -/
structure Env where
  read : ℕ → Cmd → IoResult
  write : ℕ → Cmd → (ℕ → Sector) → IoResult
  testUnitReady : ℕ → Bool
  kmalloc : ℕ → Bool
  /-- `getnstimeofday`, in seconds. -/
  clock : ℕ → BitVec 32
  /-- What freshly allocated log memory holds. -/
  stale : ℕ → LogItem

/-- Code of the driver. `none`: the kernel died. -/
abbrev SwapM := StateT World Option

/-- The kernel dies: a null or wild pointer is used. -/
def oops {α : Type} : SwapM α := fun _ => none

/-! ## Commands -/

def opRead10 : ℕ := 0x28
def opWrite10 : ℕ := 0x2a

/-- The command block built by `hd_read_sector` and `hd_write_sector`. -/
def hdCdb (op sector secNum : ℕ) : Fin 10 → Byte :=
  ![.ofNat 8 op, 0, .ofNat 8 (sector >>> 24), .ofNat 8 (sector >>> 16), .ofNat 8 (sector >>> 8),
    .ofNat 8 sector, .ofNat 8 (secNum >>> 16), .ofNat 8 (secNum >>> 8), .ofNat 8 secNum, 0]

/-- The logical block address of a 10-byte command block. -/
def cdbLba (c : Fin 10 → Byte) : ℕ :=
  (c 2).toNat * 2 ^ 24 + (c 3).toNat * 2 ^ 16 + (c 4).toNat * 2 ^ 8 + (c 5).toNat

/-- The transfer length of a 10-byte command block. -/
def cdbCount (c : Fin 10 → Byte) : ℕ := (c 7).toNat * 2 ^ 8 + (c 8).toNat

theorem cdbLba_hdCdb (op sector secNum : ℕ) : cdbLba (hdCdb op sector secNum) = sector % 2 ^ 32 := by
  simp only [cdbLba, hdCdb, Matrix.cons_val, BitVec.toNat_ofNat, Nat.shiftRight_eq_div_pow]
  omega

theorem cdbCount_hdCdb (op sector secNum : ℕ) : cdbCount (hdCdb op sector secNum) = secNum % 2 ^ 16 := by
  simp only [cdbCount, hdCdb, Matrix.cons_val, BitVec.toNat_ofNat, Nat.shiftRight_eq_div_pow]
  omega

/-- The effect of a command that came back with `r`: time passes, and a lost connection
is counted in `device_dead`. -/
def World.answered (s : World) (r : IoResult) : World :=
  let dead := match r with
    | .fail _ true => 1
    | _ => 0
  { s with tick := s.tick + 1, core := { s.core with deviceDead := s.core.deviceDead + dead } }

/-- `hd_read_sector`. The result says whether it returned 0, and which sectors of the
buffer it overwrote with what. The callers pass `len = SECTOR_SIZE * sec_num` and a buffer
that is not null. -/
def hdReadSector (E : Env) (retries sector secNum : ℕ) : SwapM (Bool × (ℕ → Option Sector)) := do
  let s ← get
  let cdb := hdCdb opRead10 sector secNum
  let lba := cdbLba cdb
  let n := cdbCount cdb
  let r := E.read s.tick ⟨lba, n, retries⟩
  set (s.answered r)
  match r with
  | .ok => return (true, fun k => if k < n then some (s.disk (lba + k)) else none)
  | .fail junk _ => return (false, fun k => if k < n then junk k else none)

/-- `hd_write_sector`. The result says whether it returned 0. `w` is for the record. -/
def hdWriteSector (E : Env) (w : Writer) (retries sector secNum : ℕ) (buf : ℕ → Sector) : SwapM Bool := do
  let s ← get
  let cdb := hdCdb opWrite10 sector secNum
  let lba := cdbLba cdb
  let n := cdbCount cdb
  let r := E.write s.tick ⟨lba, n, retries⟩ buf
  let disk := fun x => if lba ≤ x ∧ x < lba + n then
      match r with
      | .ok => buf (x - lba)
      | .fail junk _ => (junk (x - lba)).getD (s.disk x)
    else s.disk x
  set { s.answered r with disk := disk, sent := ⟨w, lba, n, disk⟩ :: s.sent }
  return r.isOk

def hdReadSectorRetry (E : Env) := hdReadSector E 5
def hdReadSectorNoRetry (E : Env) := hdReadSector E 0
def hdWriteSectorRetry (E : Env) (w : Writer) := hdWriteSector E w 5
def hdWriteSectorNoRetry (E : Env) (w : Writer) := hdWriteSector E w 0

/-- `hd_test_unit_ready`: whether it returned 0. -/
def hdTestUnitReady (E : Env) : SwapM Bool := do
  let s ← get
  set { s with tick := s.tick + 1 }
  return E.testUnitReady s.tick

/-- `kmalloc`: whether it returned memory. -/
def kmalloc (E : Env) : SwapM Bool := do
  let s ← get
  set { s with tick := s.tick + 1 }
  return E.kmalloc s.tick

/-- `atomic_inc(&core->device_dead)`. -/
def deviceDeadInc : SwapM Unit :=
  modify fun s => { s with core := { s.core with deviceDead := s.core.deviceDead + 1 } }

end ScsiSwap
