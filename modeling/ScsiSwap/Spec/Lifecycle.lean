import ScsiSwap.Spec.Bio

/-!
# The life of a core

`scsi_swap_destroy` runs beside callers of `bio_has_bad_block` and `swap_bio` and beside the items
of the work queue. `Life` is what they share, `Life.step` one step of one of them. A call of
`bio_has_bad_block` or `swap_bio` holds the core from the moment `bio_get_scsi_swap` has found it
until it returns; an item is started, counted in `core->user` while `scsi_swap_core_read` or
`scsi_swap_core_write` runs, and gone.
-/

namespace ScsiSwap

/-- A call of `swap_bio` for a bio that failed, and the data of the bio. -/
structure SwapCall where
  bdev : Bdev
  bio : Bio
  sector : ℕ
  size : ℤ
  badSec : ℕ
  buf : ℕ → Sector

/-- How far `scsi_swap_destroy` has come. -/
inductive Teardown where
  | none
  /-- In the loop of `scsi_swap_core_destroy`, in round `i`, with the number of users last read. -/
  | waiting (i users : ℕ)
  | freed
  deriving DecidableEq

structure Life where
  /-- The core. Its own counter of users is for requests served one after another. -/
  world : World
  /-- `swap->enable`. -/
  enable : Bool
  /-- `core->user`. -/
  user : ℕ
  /-- The calls of `bio_has_bad_block` that hold the core. -/
  lookups : ℕ
  /-- The calls of `swap_bio` that hold the core. -/
  submits : List SwapCall
  /-- The items in the work queue. -/
  queue : List Request
  /-- The items whose handler has not been counted yet. -/
  started : List Request
  /-- The items that are counted. -/
  running : List Request
  teardown : Teardown

/-- A core that `scsi_swap_init` has just set up. -/
def Life.fresh (w : World) : Life := ⟨w, true, 0, 0, [], [], [], [], .none⟩

inductive Event where
  | lookup (b : Bdev)
  | lookupDone
  | submit (c : SwapCall)
  | submitDone (i : ℕ)
  /-- The work queue starts an item. -/
  | start (i : ℕ)
  /-- A started item calls `scsi_swap_core_read` or `scsi_swap_core_write`. -/
  | enter (i : ℕ)
  /-- That call returns. -/
  | finish (i : ℕ)
  | destroy
  /-- `scsi_swap_core_destroy` looks at the number of users again. -/
  | poll
  | free

/-- The loops of `scsi_swap_core_read` and `scsi_swap_core_write`, between the updates of
`core->user`. -/
def Request.body (E : Env) (o : Request) : SwapM Reply := do
  let n := (getSwapBlockCount o.start (s32 o.count)).toNat
  if o.isWrite then
    let r ← coreWriteLoop E o.start (badIndex o.bad) o.buf n 0 o.count 0
    return ⟨r, o.buf⟩
  else
    let (r, buf) ← coreReadLoop E o.start (badIndex o.bad) n 0 o.count 0 o.buf
    return ⟨r, buf⟩

/-- A device, seen while `swap->enable` is `enable`. -/
def Bdev.seen (b : Bdev) (enable : Bool) : Bdev := { b with enable := enable }

/-- One step. -/
def Life.step (E : Env) (e : Event) : StateT Life Option Unit := fun l =>
  match e with
  | .lookup b =>
    if bioGetScsiSwap (b.seen l.enable) then some ((), { l with lookups := l.lookups + 1 }) else some ((), l)
  | .lookupDone => if l.lookups = 0 then none else some ((), { l with lookups := l.lookups - 1 })
  | .submit c =>
    if bioGetScsiSwap (c.bdev.seen l.enable) then some ((), { l with submits := l.submits ++ [c] })
    else some ((), l)
  | .submitDone i =>
    match l.submits[i]? with
    | none => none
    | some c =>
      match (swapBio E (c.bdev.seen l.enable) c.bio c.sector c.size c.badSec (-eio)).run l.world with
      | none => none
      | some (item, w) =>
        some ((), { l with
          world := w
          submits := l.submits.eraseIdx i
          queue := l.queue ++ (item.map fun it => it.request c.bio c.buf).toList })
  | .start i =>
    match l.queue[i]? with
    | none => none
    | some o => some ((), { l with queue := l.queue.eraseIdx i, started := l.started ++ [o] })
  | .enter i =>
    match l.started[i]?, (kmalloc E).run l.world with
    | some o, some (ok, w) =>
      -- without memory, or on a dead device, the handler is done
      if ok ∧ w.core.deviceDead = 0 then
        some ((), { l with
          world := w, started := l.started.eraseIdx i, running := l.running ++ [o], user := l.user + 1 })
      else some ((), { l with world := w, started := l.started.eraseIdx i })
    | _, _ => none
  | .finish i =>
    match l.running[i]? with
    | none => none
    | some o =>
      match (o.body E).run l.world with
      | none => none
      | some (_, w) => some ((), { l with world := w, running := l.running.eraseIdx i, user := l.user - 1 })
  | .destroy =>
    if l.teardown = .none ∧ l.enable then
      match deviceDeadInc.run l.world with
      | none => none
      | some (_, w) => some ((), { l with world := w, teardown := .waiting 0 l.user })
    else none
  | .poll =>
    match l.teardown with
    | .waiting i users =>
      if i < 100 ∧ users ≠ 0 then some ((), { l with teardown := .waiting (i + 1) l.user }) else none
    | _ => none
  | .free =>
    match l.teardown with
    | .waiting i users => if i < 100 ∧ users ≠ 0 then none else some ((), { l with teardown := .freed })
    | _ => none

end ScsiSwap
