import ScsiSwap.Spec.Bio

/-!
# Bios in flight

`generic_make_request` decides at submission where a bio goes, and what it decided may no longer be right
when the bio is served. Here every bio is a message: it is submitted, waits at the disk or for the worker,
and is served later. Submissions, completions of the disk and runs of the worker come in any order; a run
of the worker is one step.
-/

namespace ScsiSwap

/-- Sector `x` is in the range of the bio. -/
def Bio.Covers (bio : Bio) (x : ℕ) : Prop := bio.sector ≤ x ∧ x < bio.sector + bio.sectors

instance (bio : Bio) (x : ℕ) : Decidable (bio.Covers x) := inferInstanceAs (Decidable (_ ∧ _))

/-- A bio with its data. `born` is the step in which it was submitted, for the record. -/
structure Msg where
  bio : Bio
  data : ℕ → Sector
  born : ℕ

/-- A disk and its bios: those the disk has to serve, and those the worker has to, with their items. -/
structure Flight where
  world : World
  direct : List Msg
  worker : List (SwapBioItem × Msg)
  now : ℕ

/-- What can happen next. -/
inductive FlightAction where
  | submit (bio : Bio) (data : ℕ → Sector)
  /-- The disk is done with the bio at place `i`, in one call of `req_bio_endio` for all its bytes. `pos` is
  `blk_rq_pos` of its request. -/
  | complete (i : ℕ) (io : IoResult) (pos : ℕ)
  /-- The worker takes the item at place `i`. -/
  | work (i : ℕ)

inductive FlightEvent where
  | submitted (m : Msg)
  /-- Ended at submission. -/
  | refused (m : Msg) (error : ℤ)
  /-- Failed on the disk, and handed to the worker. -/
  | handed (m : Msg)
  /-- Ended after it was served, with the data of a read. -/
  | ended (m : Msg) (error : ℤ) (data : ℕ → Sector)
  | idle

/-- The disk after it has served a bio. A write that fails may leave anything in its sectors. -/
def World.direct (s : World) (m : Msg) (io : IoResult) : World :=
  if m.bio.isWrite then
    { s with disk := fun x => if m.bio.Covers x then
        match io with
        | .ok => m.data (x - m.bio.sector)
        | .fail junk _ => (junk (x - m.bio.sector)).getD (s.disk x)
      else s.disk x }
  else s

/-- The data of a bio after the disk has served it. -/
def Msg.after (m : Msg) (s : World) (io : IoResult) : ℕ → Sector :=
  if m.bio.isWrite then m.data
  else fun k => match io with
    | .ok => s.disk (m.bio.sector + k)
    | .fail junk _ => (junk k).getD (m.data k)

def onWorld {α : Type} (x : SwapM α) : StateT Flight Option α := fun f =>
  (x.run f.world).map fun r => (r.1, { f with world := r.2 })

/-- One step. -/
def FlightAction.step (E : Env) (b : Bdev) (a : FlightAction) : StateT Flight Option FlightEvent := do
  let f ← get
  set { f with now := f.now + 1 }
  match a with
  | .submit bio data =>
    let m : Msg := ⟨bio, data, f.now⟩
    match ← onWorld (genericMakeRequest E b bio) with
    | .diverted item =>
      modify fun f => { f with worker := f.worker ++ [(item, m)] }
      return .submitted m
    | .ended e => return .refused m e
    | .queued bio =>
      modify fun f => { f with direct := f.direct ++ [{ m with bio := bio }] }
      return .submitted m
  | .complete i io pos =>
    match f.direct[i]? with
    | none => return .idle
    | some m =>
      modify fun f => { f with direct := f.direct.eraseIdx i, world := f.world.direct m io }
      let (_, out) ← onWorld (reqBioEndio E b m.bio ⟨m.bio.size, if io.isOk then 0 else -eio, pos⟩)
      match out with
      | .handed item =>
        modify fun f => { f with worker := f.worker ++ [(item, m)] }
        return .handed m
      | .ended e => return .ended m e (m.after f.world io)
      | .pending => return .idle
  | .work i =>
    match f.worker[i]? with
    | none => return .idle
    | some (item, m) =>
      modify fun f => { f with worker := f.worker.eraseIdx i }
      let (e, buf) ← onWorld (swapBioWorkHandler E item m.bio m.data)
      return .ended m e buf

/-- The action submits a bio. -/
def FlightAction.isSubmit : FlightAction → Bool
  | .submit _ _ => true
  | _ => false

/-- The bio that `bio_endio` is called for, if it is. -/
def FlightEvent.done : FlightEvent → Option Msg
  | .refused m _ => some m
  | .ended m _ _ => some m
  | _ => none

/-- The bio that was submitted in step `i` is ended. -/
def FlightEvent.ends (i : ℕ) (e : FlightEvent) : Bool := e.done.any fun m => m.born = i

/-- How often the bio that was submitted in step `i` is in flight. -/
def Flight.held (f : Flight) (i : ℕ) : ℕ :=
  f.direct.countP (fun m => m.born = i) + f.worker.countP (fun c => c.2.born = i)

/-- A write that covers sector `x` is served, whatever comes of it. -/
def FlightEvent.Writes (x : ℕ) : FlightEvent → Prop
  | .handed m => m.bio.isWrite = true ∧ m.bio.Covers x
  | .ended m _ _ => m.bio.isWrite = true ∧ m.bio.Covers x
  | _ => False

/-- The write `m` is ended with error 0 in step `i`; the read `r`, which was submitted later, is ended with
error 0 and the data `data` in step `k`; both cover sector `x`, and no write of that sector is served in
between. -/
structure ReadsAfter (evs : List FlightEvent) (x i k : ℕ) (m r : Msg) (data : ℕ → Sector) : Prop where
  write : m.bio.isWrite = true ∧ m.bio.Covers x
  wrote : ∃ old, evs[i]? = some (.ended m 0 old)
  read : r.bio.isWrite = false ∧ r.bio.Covers x
  late : i < r.born
  delivered : evs[k]? = some (.ended r 0 data)
  last : ∀ j e, i < j → j < k → evs[j]? = some e → ¬ e.Writes x

end ScsiSwap
