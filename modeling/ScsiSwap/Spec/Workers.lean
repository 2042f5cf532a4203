import ScsiSwap.Lib.Runs
import ScsiSwap.Spec.Core

/-!
# Workers on one core

The work queue runs several items at a time. Each goes through its blocks with the steps below,
which are atomic because of `info_list_lock`, `bitmap_lock` and the atomic `info_num`; nothing holds
from one step to the next. Of the core they share, `Workers` has the mapping list, by source
sectors, and `info_num`.
-/

namespace ScsiSwap

/-- Where a worker is, in the round for the block that starts at sector `b`. -/
inductive Pc where
  | idle
  /-- `swap_find_swap_info` found no mapping. -/
  | missed (b : ℕ)
  /-- `swap_create` found `info_num` below the limit. -/
  | checked (b : ℕ)
  /-- `_swap_create` made a mapping. -/
  | allocated (b : ℕ)
  /-- The mapping is in the list. -/
  | appended (b : ℕ)
  /-- `flush_swap_info_table` has returned. -/
  | flushed (b : ℕ)
  deriving DecidableEq

structure Workers (n : ℕ) where
  srcs : List ℕ
  infoNum : ℕ
  pc : Fin n → Pc

inductive Act where
  /-- The lookup for the block that starts at sector `src`, under `key`: the loops of `scsi_swap_core_read` and
  `scsi_swap_core_write` keep 32 bits of the start, `swap_create` aligns the whole sector. A mapping that is found
  serves the round. -/
  | lookup (key src : ℕ)
  /-- The limit check of `swap_create`. -/
  | check
  /-- The allocation of a spare block and of memory; `ok`: both were to be had. -/
  | alloc (ok : Bool)
  | append
  | flush
  /-- `atomic_inc(&core->info_num)`. -/
  | count
  /-- The disk served the round, or it failed. -/
  | leave
  deriving DecidableEq

variable {n : ℕ}

def Workers.goto (t : Workers n) (w : Fin n) (p : Pc) : Workers n := { t with pc := Function.update t.pc w p }

/-- One step of worker `w`. -/
def Workers.step (e : Fin n × Act) : StateT (Workers n) Option Unit := fun t =>
  let (w, a) := e
  match t.pc w, a with
  | .idle, .lookup key src => some ((), if key ∈ t.srcs then t else t.goto w (.missed src))
  | .missed _, .leave => some ((), t.goto w .idle)
  | .missed b, .check => some ((), if t.infoNum < maxSwapBlockForUse then t.goto w (.checked b)
      else t.goto w .idle)
  | .checked b, .alloc ok => some ((), if ok then t.goto w (.allocated b) else t.goto w .idle)
  | .allocated _, .leave => some ((), t.goto w .idle)
  | .allocated b, .append => some ((), { t.goto w (.appended b) with srcs := t.srcs ++ [b] })
  | .appended b, .flush => some ((), t.goto w (.flushed b))
  | .flushed _, .count => some ((), { t.goto w .idle with infoNum := t.infoNum + 1 })
  | _, _ => none

end ScsiSwap
