import ScsiSwap.Spec.Flight

/-!
# A disk with one user

What all of this is for: the user of a swap-enabled disk should not see more than a disk. Here the user waits
for the end of each bio before the next one is submitted, and from time to time the core is restarted.

* `VolumeCall.serve`: a bio on its way through `generic_make_request`, the disk, `req_bio_endio` and the worker;
* `DiskSpec`: what a disk does, as a relation between sectors before and after. This is no translation of code.
-/

namespace ScsiSwap

open StateOption

/-- A bio, with what the disk says if it gets there (`io`, and `blk_rq_pos` of its request), or a restart of
the core. -/
inductive VolumeCall where
  | submit (bio : Bio) (data : ℕ → Sector) (io : IoResult) (pos : ℕ)
  | restart

/-- How a bio was ended: the error, and its data after that. -/
def FlightEvent.answer : FlightEvent → Option (ℤ × (ℕ → Sector))
  | .refused m error => some (error, m.data)
  | .ended _ error data => some (error, data)
  | _ => none

/-- All the ends of a bio, or what the restart returned. -/
inductive VolumeReply where
  | answers (l : List (ℤ × (ℕ → Sector)))
  | started (ok : Bool)

/-- The way of a bio, on a disk whose reserve starts at `R`. What has nothing to do is idle. -/
def VolumeCall.serve (E : Env) (b : Bdev) (R : ℕ) : VolumeCall → StateT Flight Option VolumeReply
  | .submit bio data io pos => do
    let events ← runAll (FlightAction.step E b) [.submit bio data, .complete 0 io pos, .work 0]
    return .answers (events.filterMap FlightEvent.answer)
  | .restart => onWorld do
    scsiSwapCoreDestroy
    return .started (← scsiSwapCoreInit E R)

/-! ## The disk as it should be -/

/-- What is right on a disk of `R` sectors. Every bio is ended once. A bio that is ended with error 0 has done
what it is for; a read never changes a sector, and a write none that it does not cover. A restart works, and
changes nothing. -/
inductive DiskSpec (R : ℕ) : VolumeCall → (Fin R → Sector) → VolumeReply → (Fin R → Sector) → Prop
  | read {bio data io pos d buf} (hr : bio.isWrite = false)
      (h : ∀ x : Fin R, bio.Covers x → buf (x - bio.sector) = d x) :
      DiskSpec R (.submit bio data io pos) d (.answers [(0, buf)]) d
  | write {bio data io pos d d' buf} (hw : bio.isWrite = true)
      (h : ∀ x : Fin R, d' x = if bio.Covers x then data (x - bio.sector) else d x) :
      DiskSpec R (.submit bio data io pos) d (.answers [(0, buf)]) d'
  | failed {bio data io pos d d' error buf} (he : error ≠ 0)
      (h : ∀ x : Fin R, ¬ (bio.isWrite = true ∧ bio.Covers x) → d' x = d x) :
      DiskSpec R (.submit bio data io pos) d (.answers [(error, buf)]) d'
  | restart {d} : DiskSpec R .restart d (.started true) d

/-- The sectors the user finds. -/
def World.userDisk (s : World) (R : ℕ) : Fin R → Sector := fun x => s.contents x

end ScsiSwap
