import ScsiSwap.Lib.Runs
import ScsiSwap.Spec.Init

/-!
# Sessions

What the two halves of the driver mean together. The logical contents of a disk are what
its user should find in a sector: the data of the mapping if the sector's block is mapped,
the disk otherwise. A session serves requests one after another.
-/

namespace ScsiSwap

open StateOption

/-- The logical contents of a sector. -/
def World.contents (s : World) (x : ℕ) : Sector :=
  match s.swapFindSwapInfo (swapSectorAlign x) with
  | some p => match (s.heap p).data with
    | some d => blockBuf d (x - swapSectorAlign x)
    | none => zeroSector
  | none => s.disk x

/-- A call of `scsi_swap_core_read` or `scsi_swap_core_write`. -/
structure Request where
  isWrite : Bool
  start : ℕ
  count : ℕ
  bad : ℕ
  buf : ℕ → Sector

/-- Its return value, and the buffer after a read. -/
structure Reply where
  ret : Ret
  buf : ℕ → Sector

namespace Request

/-- Sector `x` is in the range of the request. -/
def Covers (o : Request) (x : ℕ) : Prop := o.start ≤ x ∧ x < o.start + o.count

/-- The request has to do with the block of 128 sectors number `b`. -/
def Touches (o : Request) (b : ℕ) : Prop := 128 * b < o.start + o.count ∧ o.start < 128 * b + 128

instance (o : Request) (x : ℕ) : Decidable (o.Covers x) := inferInstanceAs (Decidable (_ ∧ _))

instance (o : Request) (b : ℕ) : Decidable (o.Touches b) := inferInstanceAs (Decidable (_ ∧ _))

def serve (E : Env) (o : Request) : SwapM Reply := do
  if o.isWrite then
    let r ← scsiSwapCoreWrite E o.start o.count o.bad o.buf
    return ⟨r, o.buf⟩
  else
    let (r, buf) ← scsiSwapCoreRead E o.start o.count o.bad o.buf
    return ⟨r, buf⟩

end Request

/-- A session: requests one after another. -/
def session (E : Env) (os : List Request) : SwapM (List Reply) := runAll (Request.serve E) os

/-! ## Restarts of the core -/

/-- A request, or `scsi_swap_core_destroy` with a `scsi_swap_core_init` after it. -/
inductive CoreCall where
  | request (o : Request)
  | restart

/-- The call, on a disk whose reserve starts at `R`: the reply to a request, or what the start returned. -/
def CoreCall.serve (E : Env) (R : ℕ) : CoreCall → SwapM (Reply ⊕ Bool)
  | .request o => do return .inl (← o.serve E)
  | .restart => do
    scsiSwapCoreDestroy
    return .inr (← scsiSwapCoreInit E R)

/-- A mapping of the list, without the record of where its entry was saved. -/
structure MappedBlock where
  srcSec : BitVec 64
  swapSec : BitVec 64
  index : BitVec 32
  data : Option Block

/-- The mapping list, in order. -/
def World.mappedBlocks (s : World) : List MappedBlock :=
  s.core.infoList.map fun p =>
    let i := s.heap p
    ⟨i.table.srcSec, i.table.swapSec, i.table.index, i.data⟩

/-! ## The calls of a driver's life -/

/-- What is called from outside: a start, a request, or an entry in the log. -/
inductive Call where
  | start
  | request (o : Request)
  | push (type result : BitVec 8) (src dst : BitVec 64) (count : BitVec 16)

/-- The disk and the handler, and whether the last start returned 0: without a handler nothing
reaches the core or the log. -/
structure Driver where
  up : Bool
  world : World

/-- One call, on a disk whose reserve starts at `R`. -/
def Call.serve (E : Env) (R : ℕ) (c : Call) : StateT Driver Option Unit := fun d =>
  match c with
  | .start => ((scsiSwapInit E R).run d.world).map fun r => ((), ⟨r.1, r.2⟩)
  | .request o => if d.up then ((o.serve E).run d.world).map fun r => ((), ⟨true, r.2⟩) else some ((), d)
  | .push type result src dst count =>
    if d.up then ((scsiSwapLogPush E type result src dst count).run d.world).map fun r => ((), ⟨true, r.2⟩)
    else some ((), d)

/-! ## Devices and requests to try things on -/

/-- A blank disk, and a driver that is not set up. -/
def World.blank : World :=
  { core := { deviceDead := 0, infoNum := 0, user := 0, head := SwapHead.zero, infoList := []
              sectorReserveStart := 0, sectorHead := 0, sectorTable := 0, sectorData := 0 }
    log := { head := ⟨0, 0, 0⟩, ring := none, sectorHead := 0, sectorData := 0 }
    heap := fun _ => ⟨SwapTable.zero, none⟩
    brk := 0
    disk := fun _ => zeroSector
    tick := 0
    sent := [] }

/-- A device whose writes fail, without a trace, where `refuses` says so. All else works. -/
def Env.refusing (refuses : Cmd → (ℕ → Sector) → Bool) : Env :=
  { read := fun _ _ => .ok
    write := fun _ c buf => if refuses c buf then .fail (fun _ => none) false else .ok
    testUnitReady := fun _ => true
    kmalloc := fun _ => true
    clock := fun _ => 0
    stale := fun _ => ⟨0, 0, 0, 0, 0, 0, 0, 0, 0, 0, 0⟩ }

/-- A device with bad sectors: a command that starts at one fails, without a trace. -/
def Env.scarred (bad : ℕ → Bool) : Env :=
  { Env.refusing (fun c _ => bad c.lba) with
    read := fun _ c => if bad c.lba then .fail (fun _ => none) false else .ok }

/-- A write of the whole block at `start`, with the same byte everywhere. -/
def Request.fill (start : ℕ) (b : ByteCodec.Byte) : Request := ⟨true, start, 128, 2 ^ 64 - 1, fun _ _ => b⟩

end ScsiSwap
