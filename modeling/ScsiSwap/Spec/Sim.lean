import ScsiSwap.Spec.Sd
import ScsiSwap.Spec.Show

/-!
# `sim.c`, and the commands it fails

A list of sector ranges that are to look bad. `scmd_should_be_bad` decodes the range of a write command and asks
whether it meets one of them.
-/

namespace ScsiSwap

/-- `struct sim_node`. Its `rw` is never set or read. -/
structure SimNode where
  start : BitVec 64
  num : BitVec 32
  deriving DecidableEq

/-! ## The list -/

/-- `sectorA_hit_sectorB`. -/
def sectorAHitSectorB (aStart aEnd bStart bEnd : ℕ) : Bool :=
  (aStart ≥ bStart ∧ aStart ≤ bEnd) ∨ (aEnd ≥ bStart ∧ aEnd ≤ bEnd) ∨ (aStart ≤ bStart ∧ aEnd ≥ bEnd)

/-- `scsi_swap_sim_add`, by whether there is memory for the node: the value returned, and the list. -/
def scsiSwapSimAdd (mem : Bool) (sim : List SimNode) (sector : BitVec 64) (num : ℤ) : ℤ × List SimNode :=
  if mem then (0, sim ++ [⟨sector, .ofInt 32 num⟩]) else (-1, sim)

/-- `scsi_swap_sim_remove`: it takes the first node that starts at `sector`, and never looks at `num`. -/
def scsiSwapSimRemove (sim : List SimNode) (sector : BitVec 64) (_num : ℤ) : ℤ × List SimNode :=
  (0, sim.eraseP fun node => node.start = sector)

/-- `scsi_swap_sim_hit`. -/
def scsiSwapSimHit (sim : List SimNode) (sector : BitVec 64) (num : ℤ) : Bool :=
  sim.any fun node => sectorAHitSectorB sector.toNat (u64 (sector.toNat + num - 1))
    node.start.toNat (u64 (node.start.toNat + node.num.toNat - 1))

def SimNode.line (node : SimNode) : List Char := lineOf [node.start.toNat, node.num.toNat]

/-- `scsi_swap_sim_show`. -/
def scsiSwapSimShow (sim : List SimNode) (page : PageMem) :
    ℤ × PageMem := showLines 64 (sim.map SimNode.line) page

/-! ## Commands -/

/-- `SCSI_ACTION_UNKNOWN`, `SCSI_ACTION_READ` and `SCSI_ACTION_WRITE`. -/
inductive ScsiAction where
  | unknown
  | read
  | write
  deriving DecidableEq

/-- `scmd_get_action`. -/
def scmdGetAction (c : Cdb) : ScsiAction :=
  if opcode c = opRead6 ∨ opcode c = opRead10 ∨ opcode c = opRead12 ∨ opcode c = opRead16 then .read
  else if opcode c = opWrite6 ∨ opcode c = opWrite10 ∨ opcode c = opWrite12 ∨ opcode c = opWrite16 then .write
  else .unknown

/-- `scmd_should_be_bad`: only writes are made to fail. -/
def scmdShouldBeBad (enable : Bool) (sim : List SimNode) (c : Cdb) : Bool :=
  enable && decide (scmdGetAction c = .write) &&
    scsiSwapSimHit sim (.ofNat 64 (sectorFromScmd c).1) (s32 (sectorFromScmd c).2)

end ScsiSwap
