import ScsiSwap.Proof.Keeping
import ScsiSwap.Spec.Flight

/-!
# Updates and bios in flight

A write that the disk has in flight when a mapping is made for its block ends on the disk, where no one
looks any more: the mapping has the old data.

* `Advanced`: what one step can do; `step_advanced` says that it does nothing else;
* `Flight.Ok`: the bios in flight are those that were submitted, and the core is in order;
* `Flight.Holds`: a sector has the data of the last write, for every read that may come;
* `no_lost_update`: what a write has left is what later reads find, if no direct write finds its block
  mapped when it completes, and the worker changes nothing but what it writes.
-/

namespace ScsiSwap

open StateOption

variable {E : Env} {b : Bdev} {s s' w : World} {f f' : Flight} {a : FlightAction} {e : FlightEvent}

/-! ## Submission and completion leave the core alone -/

theorem onWorld_iff {α : Type} {x : SwapM α} {r : α} :
    (onWorld x).run f = some (r, f') ↔ ∃ w, x.run f.world = some (r, w) ∧ f' = { f with world := w } := by
  show (x.run f.world).map _ = some (r, f') ↔ _
  rw [Option.map_eq_some_iff]
  constructor
  · rintro ⟨⟨r', w⟩, hrun, he⟩
    obtain ⟨rfl, rfl⟩ := Prod.mk.inj he
    exact ⟨w, hrun, rfl⟩
  · rintro ⟨w, hrun, rfl⟩
    exact ⟨(r, w), hrun, rfl⟩

theorem swapBio_dev {A : ℕ → Prop} {bio : Bio} {sector badSec : ℕ} {size error : ℤ} {o : Option SwapBioItem}
    (h : (swapBio E b bio sector size badSec error).run s = some (o, s')) : Dev A s s' := by
  unfold swapBio at h
  split at h
  · obtain ⟨-, rfl⟩ := run_pure_iff.1 h
    exact Dev.refl _
  split at h
  · obtain ⟨-, rfl⟩ := run_pure_iff.1 h
    exact Dev.refl _
  split at h
  · obtain ⟨-, rfl⟩ := run_pure_iff.1 h
    exact Dev.refl _
  rw [run_get_bind] at h
  split at h
  · obtain ⟨-, rfl⟩ := run_pure_iff.1 h
    exact Dev.refl _
  obtain ⟨ok, s₁, h1, h2⟩ := run_bind_iff.1 h
  have hs : s' = s₁ := by
    split at h2
    · exact (run_pure_iff.1 h2).2
    · exact (run_pure_iff.1 h2).2
  rw [hs]
  exact kmalloc_dev h1

/-- What `generic_make_request` may do with a bio. -/
inductive Routed (b : Bdev) (bio : Bio) (s : World) : Route → Prop
  | diverted : Routed b bio s (.diverted ⟨bio.sector, s32 bio.size, noBadSec⟩)
  | ended (error : ℤ) : Routed b bio s (.ended error)
  | queued (h : s.bioHasBadBlock b bio = false) : Routed b bio s (.queued (blkPartitionRemap b bio))

theorem genericMakeRequest_routed {A : ℕ → Prop} {bio : Bio} {r : Route}
    (h : (genericMakeRequest E b bio).run s = some (r, s')) : Dev A s s' ∧ Routed b bio s r := by
  unfold genericMakeRequest at h
  rw [run_get_bind] at h
  split at h
  · obtain ⟨o, s₁, h1, h2⟩ := run_bind_iff.1 h
    have hdev := swapBio_dev (A := A) h1
    cases o with
    | none =>
      obtain ⟨rfl, rfl⟩ := run_pure_iff.1 h2
      exact ⟨hdev, .ended _⟩
    | some item =>
      obtain ⟨rfl, rfl⟩ := run_pure_iff.1 h2
      obtain ⟨rfl, -⟩ := (swapBio_run h1).2 item rfl
      exact ⟨hdev, .diverted⟩
  · rename_i hbad
    split at h
    · obtain ⟨rfl, rfl⟩ := run_pure_iff.1 h
      exact ⟨Dev.refl _, .ended _⟩
    · dsimp only at h
      split at h
      · obtain ⟨rfl, rfl⟩ := run_pure_iff.1 h
        exact ⟨Dev.refl _, .ended _⟩
      · obtain ⟨rfl, rfl⟩ := run_pure_iff.1 h
        exact ⟨Dev.refl _, .queued (Bool.eq_false_iff.2 hbad)⟩

/-- Reads are handed over only if no sector is named as bad. -/
theorem swapBio_read {bio : Bio} {sector badSec : ℕ} {size error : ℤ} {item : SwapBioItem}
    (hr : bio.isWrite = false)
    (h : (swapBio E b bio sector size badSec error).run s = some (some item, s')) : badSec = noBadSec := by
  unfold swapBio at h
  split at h
  · exact absurd (run_pure_iff.1 h).1 (by simp)
  split at h
  · exact absurd (run_pure_iff.1 h).1 (by simp)
  rename_i hbad
  by_contra hne
  exact hbad ⟨by simp [hr], hne⟩

/-- What `req_bio_endio` may do with a bio that is complete. A bio that has failed is not ended with error 0. -/
inductive Ended (bio : Bio) (c : EndCall) : Outcome → Prop
  | handed (h : bio.isWrite = false → c.pos = noBadSec) : Ended bio c (.handed ⟨bio.sector, s32 bio.size, c.pos⟩)
  | ended {error : ℤ} (h : error = 0 → c.error = 0) : Ended bio c (.ended error)

theorem reqBioEndio_ended {A : ℕ → Prop} {bio : Bio} {c : EndCall} {r : Bio × Outcome} (hc : c.nbytes = bio.size)
    (h : (reqBioEndio E b bio c).run s = some (r, s')) : Dev A s s' ∧ Ended bio c r.2 := by
  unfold reqBioEndio at h
  dsimp only at h
  rw [if_pos (by rw [hc]; simp)] at h
  obtain ⟨o, s₁, h1, h2⟩ := run_bind_iff.1 h
  have hdev := swapBio_dev (A := A) h1
  cases o with
  | none =>
    obtain ⟨rfl, rfl⟩ := run_pure_iff.1 h2
    refine ⟨hdev, .ended ?_⟩
    split
    · exact fun h => absurd h (by decide)
    · exact fun h => h
  | some item =>
    obtain ⟨rfl, rfl⟩ := run_pure_iff.1 h2
    obtain ⟨rfl, -⟩ := (swapBio_run h1).2 item rfl
    exact ⟨hdev, .handed fun hr => swapBio_read hr h1⟩

/-! ## Steps -/

/-- **What one step can do.** -/
inductive Advanced (E : Env) (b : Bdev) (f : Flight) : FlightAction → FlightEvent → Flight → Prop
  | diverted {bio data w} (hd : Dev (fun _ => False) f.world w) :
      Advanced E b f (.submit bio data) (.submitted ⟨bio, data, f.now⟩)
        ⟨w, f.direct, f.worker ++ [(⟨bio.sector, s32 bio.size, noBadSec⟩, ⟨bio, data, f.now⟩)], f.now + 1⟩
  | refused {bio data error w} (hd : Dev (fun _ => False) f.world w) :
      Advanced E b f (.submit bio data) (.refused ⟨bio, data, f.now⟩ error) ⟨w, f.direct, f.worker, f.now + 1⟩
  | queued {bio data w} (hd : Dev (fun _ => False) f.world w) (h : f.world.bioHasBadBlock b bio = false) :
      Advanced E b f (.submit bio data) (.submitted ⟨bio, data, f.now⟩)
        ⟨w, f.direct ++ [⟨blkPartitionRemap b bio, data, f.now⟩], f.worker, f.now + 1⟩
  | handed {i io pos m w} (hi : f.direct[i]? = some m) (hd : Dev (fun _ => False) (f.world.direct m io) w)
      (hr : m.bio.isWrite = false → pos = noBadSec) :
      Advanced E b f (.complete i io pos) (.handed m)
        ⟨w, f.direct.eraseIdx i, f.worker ++ [(⟨m.bio.sector, s32 m.bio.size, pos⟩, m)], f.now + 1⟩
  | served {i io pos m error w} (hi : f.direct[i]? = some m) (hd : Dev (fun _ => False) (f.world.direct m io) w)
      (he : error = 0 → io.isOk = true) :
      Advanced E b f (.complete i io pos) (.ended m error (m.after f.world io))
        ⟨w, f.direct.eraseIdx i, f.worker, f.now + 1⟩
  | worked {i item m error buf w} (hi : f.worker[i]? = some (item, m))
      (h : ((⟨item, m.bio, m.data⟩ : BioCall).handle E).run f.world = some ((error, buf), w)) :
      Advanced E b f (.work i) (.ended m error buf) ⟨w, f.direct, f.worker.eraseIdx i, f.now + 1⟩
  | idle (a : FlightAction) : Advanced E b f a .idle { f with now := f.now + 1 }

theorem step_advanced (h : (a.step E b).run f = some (e, f')) : Advanced E b f a e f' := by
  unfold FlightAction.step at h
  rw [run_get_bind, run_set_bind] at h
  cases a with
  | submit bio data =>
    dsimp only at h
    obtain ⟨r, f₁, h1, h2⟩ := run_bind_iff.1 h
    obtain ⟨w, hw, rfl⟩ := onWorld_iff.1 h1
    obtain ⟨hdev, hr⟩ := genericMakeRequest_routed (A := fun _ => False) hw
    cases hr with
    | diverted =>
      dsimp only at h2
      rw [run_modify_bind] at h2
      obtain ⟨rfl, rfl⟩ := run_pure_iff.1 h2
      exact .diverted hdev
    | ended error =>
      obtain ⟨rfl, rfl⟩ := run_pure_iff.1 h2
      exact .refused hdev
    | queued hbad =>
      dsimp only at h2
      rw [run_modify_bind] at h2
      obtain ⟨rfl, rfl⟩ := run_pure_iff.1 h2
      exact .queued hdev hbad
  | complete i io pos =>
    dsimp only at h
    cases hi : f.direct[i]? with
    | none =>
      rw [hi] at h
      obtain ⟨rfl, rfl⟩ := run_pure_iff.1 h
      exact .idle _
    | some m =>
      rw [hi] at h
      dsimp only at h
      rw [run_modify_bind] at h
      obtain ⟨⟨bio', out⟩, f₁, h1, h2⟩ := run_bind_iff.1 h
      obtain ⟨w, hw, rfl⟩ := onWorld_iff.1 h1
      obtain ⟨hdev, hout⟩ := reqBioEndio_ended (A := fun _ => False) rfl hw
      dsimp only at h2 hout
      cases hout with
      | handed hr =>
        dsimp only at h2
        rw [run_modify_bind] at h2
        obtain ⟨rfl, rfl⟩ := run_pure_iff.1 h2
        exact .handed hi hdev hr
      | @ended error he =>
        obtain ⟨rfl, rfl⟩ := run_pure_iff.1 h2
        -- a bio that the disk failed is not ended with error 0
        refine .served hi hdev fun h0 => ?_
        have hzero := he h0
        dsimp only at hzero
        by_contra hne
        rw [if_neg hne] at hzero
        exact absurd hzero (by decide)
  | work i =>
    dsimp only at h
    cases hi : f.worker[i]? with
    | none =>
      rw [hi] at h
      obtain ⟨rfl, rfl⟩ := run_pure_iff.1 h
      exact .idle _
    | some c =>
      obtain ⟨item, m⟩ := c
      rw [hi] at h
      dsimp only at h
      rw [run_modify_bind] at h
      obtain ⟨⟨error, buf⟩, f₁, h1, h2⟩ := run_bind_iff.1 h
      obtain ⟨w, hw, rfl⟩ := onWorld_iff.1 h1
      obtain ⟨rfl, rfl⟩ := run_pure_iff.1 h2
      exact .worked hi hw

theorem Advanced.now (h : Advanced E b f a e f') : f'.now = f.now + 1 := by
  cases h <;> rfl

/-! ## The bios in flight -/

/-- The bio ends before the reserve. -/
structure Bio.Below (R : ℕ) (bio : Bio) : Prop where
  size : bio.size < 2 ^ 32
  user : bio.sector + bio.sectors ≤ R

/-- The item is for the whole bio, and names no bad sector if this is a read. -/
structure SwapBioItem.For (item : SwapBioItem) (bio : Bio) : Prop where
  start : item.startSec = bio.sector
  size : item.size = s32 bio.size
  bad : bio.isWrite = false → item.badSec = noBadSec

/-- The core is in order, and the bios in flight were submitted before, within the user sectors. -/
structure Flight.Ok (R : ℕ) (f : Flight) : Prop where
  inv : f.world.view.Inv
  reserve : f.world.core.sectorReserveStart = R
  direct : ∀ m ∈ f.direct, m.born < f.now ∧ m.bio.Below R
  worker : ∀ c ∈ f.worker, c.2.born < f.now ∧ c.2.bio.Below R ∧ c.1.For c.2.bio

/-- The run of the worker for an item. -/
def Msg.call (m : Msg) (item : SwapBioItem) : BioCall := ⟨item, m.bio, m.data⟩

/-- A bio that is submitted ends before the reserve. -/
def FlightAction.Below (R : ℕ) : FlightAction → Prop
  | .submit bio _ => bio.Below R
  | _ => True

/-- The condition on a step: a write that the disk has taken finds none of its blocks mapped, and the worker
changes nothing but what it writes. -/
def FlightAction.Safe (E : Env) (f : Flight) : FlightAction → Prop
  | .submit _ _ => True
  | .complete i io _ => ∀ m, f.direct[i]? = some m → m.bio.isWrite = true → io.isOk = true →
      ∀ x, m.bio.Covers x → f.world.swapFindSwapInfo (swapSectorAlign x) = none
  | .work i => ∀ item m, f.worker[i]? = some (item, m) → (m.call item).Keeps E f.world

theorem Dev.contents (h : Dev (fun _ => False) s w) (x : ℕ) : w.contents x = s.contents x := by
  rw [contents_view, contents_view, h.view, show w.disk = s.disk from funext fun y => h.disk y id]

theorem direct_view (s : World) (m : Msg) (io : IoResult) : (s.direct m io).view = s.view := by
  unfold World.direct
  split
  · rfl
  · rfl

theorem direct_disk {m : Msg} {x : ℕ} (s : World) (io : IoResult)
    (h : ¬ (m.bio.isWrite = true ∧ m.bio.Covers x)) : (s.direct m io).disk x = s.disk x := by
  unfold World.direct
  split
  · rename_i hw
    exact if_neg fun hc => h ⟨hw, hc⟩
  · rfl

theorem direct_contents {m : Msg} {x : ℕ} (s : World) (io : IoResult)
    (h : ¬ (m.bio.isWrite = true ∧ m.bio.Covers x)) : (s.direct m io).contents x = s.contents x := by
  rw [contents_view, contents_view, direct_view]
  exact View.contents_congr rfl (fun _ _ => rfl) fun _ => direct_disk s io h

theorem mem_append_one {α : Type} {l : List α} {y : α} {P : α → Prop} (hl : ∀ z ∈ l, P z) (hy : P y) :
    ∀ z ∈ l ++ [y], P z := by
  intro z hz
  rcases List.mem_append.1 hz with hz | hz
  · exact hl z hz
  · rw [List.mem_singleton.1 hz]
    exact hy

/-- The request for an item has no more sectors than its bio. -/
theorem Msg.count_le {m : Msg} {item : SwapBioItem} (hs : m.bio.size < 2 ^ 32) (h : item.size = s32 m.bio.size) :
    (m.call item).request.count ≤ m.bio.sectors ∧
      (0 ≤ item.size → (m.call item).request.count = m.bio.sectors) := by
  unfold Msg.call BioCall.request SwapBioItem.request Bio.sectors
  dsimp only
  rw [Nat.shiftRight_eq_div_pow, Nat.shiftRight_eq_div_pow, h]
  unfold s32
  constructor
  · omega
  · intro hpos
    omega

theorem Flight.Ok.fits {R i : ℕ} (h : f.Ok R) {item : SwapBioItem} {m : Msg}
    (hi : f.worker[i]? = some (item, m)) : (m.call item).Fits f.world := by
  obtain ⟨-, hbelow, hstart, hsize, -⟩ := h.worker _ (List.mem_of_getElem? hi)
  dsimp only at hbelow hstart hsize
  have hle := (Msg.count_le hbelow.size hsize).1
  have hlt := Bio.sectors_lt hbelow.size
  have huser := hbelow.user
  refine ⟨?_, h.inv.geom.size, by omega⟩
  show item.startSec + _ ≤ _
  rw [hstart, h.reserve]
  omega

/-- The sectors of the request for an item are those of its bio. -/
theorem Flight.Ok.covers {R i x : ℕ} (h : f.Ok R) {item : SwapBioItem} {m : Msg}
    (hi : f.worker[i]? = some (item, m)) (hx : (m.call item).request.Covers x) : m.bio.Covers x := by
  obtain ⟨-, hbelow, hstart, hsize, -⟩ := h.worker _ (List.mem_of_getElem? hi)
  dsimp only at hbelow hstart hsize
  have hle := (Msg.count_le hbelow.size hsize).1
  have hx : item.startSec ≤ x ∧ x < item.startSec + (m.call item).request.count := hx
  rw [hstart] at hx
  exact ⟨hx.1, by omega⟩

theorem Flight.Ok.covers_iff {R i x : ℕ} (h : f.Ok R) {item : SwapBioItem} {m : Msg}
    (hi : f.worker[i]? = some (item, m)) (hpos : 0 ≤ item.size) : (m.call item).request.Covers x ↔
      m.bio.Covers x := by
  obtain ⟨-, hbelow, hstart, hsize, -⟩ := h.worker _ (List.mem_of_getElem? hi)
  dsimp only at hbelow hstart hsize
  show item.startSec ≤ x ∧ x < item.startSec + (m.call item).request.count ↔ _
  rw [(Msg.count_le hbelow.size hsize).2 hpos, hstart]
  exact Iff.rfl

/-- A partition that starts at sector 0 has the sector numbers of the disk. -/
theorem blkPartitionRemap_whole (hp : b.startSect = 0) (bio : Bio) : blkPartitionRemap b bio = bio := by
  unfold blkPartitionRemap
  rw [hp]
  split
  · rfl
  · rfl

/-- One step keeps the bios in flight in order. -/
theorem Flight.Ok.step {R : ℕ} (hp : b.startSect = 0) (h : f.Ok R) (hs : a.Below R) (hm : Advanced E b f a e f') :
    f'.Ok R := by
  have hdirect : ∀ m ∈ f.direct, m.born < f.now + 1 ∧ m.bio.Below R :=
    fun m hm => ⟨Nat.lt_succ_of_lt (h.direct m hm).1, (h.direct m hm).2⟩
  have hworker : ∀ c ∈ f.worker, c.2.born < f.now + 1 ∧ c.2.bio.Below R ∧ c.1.For c.2.bio :=
    fun c hc => ⟨Nat.lt_succ_of_lt (h.worker c hc).1, (h.worker c hc).2⟩
  have hquiet : ∀ w : World, Dev (fun _ => False) f.world w → w.view.Inv ∧
      w.core.sectorReserveStart = R := fun w hd =>
    ⟨hd.view ▸ h.inv, (congrArg Geom.reserve hd.geom).trans h.reserve⟩
  have hserved : ∀ (m : Msg) (io : IoResult) (w : World), Dev (fun _ => False) (f.world.direct m io) w →
      w.view.Inv ∧ w.core.sectorReserveStart = R := by
    intro m io w hd
    have hview : w.view = f.world.view := hd.view.trans (direct_view ..)
    exact ⟨hview ▸ h.inv, (congrArg (fun v => v.geom.reserve) hview).trans h.reserve⟩
  cases hm with
  | diverted hd =>
    obtain ⟨hv, hR⟩ := hquiet _ hd
    exact ⟨hv, hR, hdirect, mem_append_one hworker ⟨Nat.lt_succ_self _, hs, rfl, rfl, fun _ => rfl⟩⟩
  | refused hd =>
    obtain ⟨hv, hR⟩ := hquiet _ hd
    exact ⟨hv, hR, hdirect, hworker⟩
  | queued hd hbad =>
    obtain ⟨hv, hR⟩ := hquiet _ hd
    refine ⟨hv, hR, mem_append_one hdirect ⟨Nat.lt_succ_self _, ?_⟩, hworker⟩
    rw [blkPartitionRemap_whole hp]
    exact hs
  | handed hi hd hr =>
    obtain ⟨hv, hR⟩ := hserved _ _ _ hd
    obtain ⟨hborn, hbelow⟩ := hdirect _ (List.mem_of_getElem? hi)
    exact ⟨hv, hR, fun m hm => hdirect m (List.mem_of_mem_eraseIdx hm),
      mem_append_one hworker ⟨hborn, hbelow, rfl, rfl, hr⟩⟩
  | served hi hd he =>
    obtain ⟨hv, hR⟩ := hserved _ _ _ hd
    exact ⟨hv, hR, fun m hm => hdirect m (List.mem_of_mem_eraseIdx hm), hworker⟩
  | worked hi hrun =>
    obtain ⟨hv, hgeom⟩ := handle_inv hrun h.inv (h.fits hi)
    exact ⟨hv, (congrArg Geom.reserve hgeom).trans h.reserve, hdirect,
      fun c hc => hworker c (List.mem_of_mem_eraseIdx hc)⟩
  | idle _ => exact ⟨h.inv, h.reserve, hdirect, hworker⟩

/-! ## A sector after a write -/

/-- A bio that is not diverted has none of its blocks mapped. -/
theorem unmapped_of_queued {bio : Bio} {R x : ℕ} (hb : bioGetScsiSwap b = true)
    (hbelow : bio.Below R) (hR : R ≤ 2 ^ 32)
    (h : s.bioHasBadBlock b bio = false) (hx : bio.Covers x) : s.swapFindSwapInfo (swapSectorAlign x) = none := by
  have hlt := Bio.sectors_lt hbelow.size
  have huser := hbelow.user
  obtain ⟨hx1, hx2⟩ := hx
  unfold World.bioHasBadBlock at h
  rw [hb, Bool.true_and, didBlockSwapped_examined, examined_eq (by omega) (by omega) (by omega),
    List.any_eq_false] at h
  obtain ⟨hi, -⟩ := exists_segment hx1 hx2
  have hblock : swapSectorAlign x = 128 * (bio.sector / 128 + (x / 128 - bio.sector / 128)) := by
    unfold swapSectorAlign swapBlockIndex
    omega
  have hnone := h _ (List.mem_map.2 ⟨_, List.mem_range.2 hi, rfl⟩)
  rw [← hblock] at hnone
  exact Option.not_isSome_iff_eq_none.1 hnone

/-- Sector `x` has the data `d`, and so it has on the disk if the disk has to serve a read of it that was
submitted after step `i`. -/
structure Flight.Holds (f : Flight) (i x : ℕ) (d : Sector) : Prop where
  contents : f.world.contents x = d
  reads : ∀ m ∈ f.direct, m.bio.isWrite = false → m.bio.Covers x → i < m.born → f.world.disk x = d

/-- **A write that succeeds** leaves its data. -/
theorem Advanced.writes {R x : ℕ} {m : Msg} {data : ℕ → Sector} (h : f.Ok R) (hs : a.Safe E f)
    (hm : Advanced E b f a (.ended m 0 data) f') (hw : m.bio.isWrite = true) (hx : m.bio.Covers x) :
    f'.Holds f.now x (m.data (x - m.bio.sector)) := by
  have hold : ∀ m' ∈ f.direct, ¬ f.now < m'.born := fun m' hm' => Nat.lt_asymm (h.direct m' hm').1
  cases hm with
  | @served i io pos _ _ w hi hd he =>
    refine ⟨?_, fun m' hm' _ _ hlate => absurd hlate (hold m' (List.mem_of_mem_eraseIdx hm'))⟩
    have hn : f.world.view.find (swapSectorAlign x) = none := hs m hi hw (he rfl) x hx
    rw [hd.contents, contents_view, direct_view, View.contents_unmapped hn]
    unfold World.direct
    rw [if_pos hw]
    show (if m.bio.Covers x then _ else _) = _
    rw [if_pos hx]
    cases io with
    | ok => rfl
    | fail junk nc => exact absurd (he rfl) (by simp [IoResult.isOk])
  | @worked i item _ _ _ w hi hrun =>
    refine ⟨?_, fun m' hm' _ _ hlate => absurd hlate (hold m' hm')⟩
    obtain ⟨hsize, s₁, r, hmem, hserve, hr, -⟩ := handle_success hrun
    obtain ⟨-, -, hstart, -, -⟩ := h.worker _ (List.mem_of_getElem? hi)
    have hview : s₁.view = f.world.view := (kmalloc_dev (A := fun _ => False) hmem).view
    have hfits : Fits (m.call item).request.start (m.call item).request.count s₁.view.geom.reserve := by
      rw [hview]
      exact h.fits hi
    have hserved := serve_served hserve (hview ▸ h.inv) hfits
    refine (hserved.wrote hw hr x ((h.covers_iff hi hsize).2 hx)).trans ?_
    show m.data (x - item.startSec) = _
    rw [hstart]

/-- **A step that serves no write of the sector** leaves the sector alone. -/
theorem Flight.Holds.step {R i x : ℕ} {d : Sector} (hb : bioGetScsiSwap b = true)
    (hp : b.startSect = 0) (h : f.Ok R)
    (hx : x < R) (hbelow : a.Below R) (hs : a.Safe E f) (hm : Advanced E b f a e f') (hno : ¬ e.Writes x)
    (hd : f.Holds i x d) : f'.Holds i x d := by
  cases hm with
  | diverted hdev =>
    refine ⟨(hdev.contents x).trans hd.contents, fun m hm hr hc hlate => ?_⟩
    exact (hdev.disk x id).trans (hd.reads m hm hr hc hlate)
  | refused hdev =>
    refine ⟨(hdev.contents x).trans hd.contents, fun m hm hr hc hlate => ?_⟩
    exact (hdev.disk x id).trans (hd.reads m hm hr hc hlate)
  | @queued bio data w hdev hbad =>
    refine ⟨(hdev.contents x).trans hd.contents, mem_append_one ?_ ?_⟩
    · exact fun m hm hr hc hlate => (hdev.disk x id).trans (hd.reads m hm hr hc hlate)
    · -- the bio was not diverted, so the data is on the disk
      intro _ hc _
      have hsmall : R ≤ 2 ^ 32 := by
        have hgeom := h.inv.geom.size
        have hR : f.world.view.geom.reserve = R := h.reserve
        omega
      rw [blkPartitionRemap_whole hp] at hc
      have hn : f.world.view.find (swapSectorAlign x) = none := unmapped_of_queued hb hbelow hsmall hbad hc
      rw [hdev.disk x id, ← hd.contents, contents_view, View.contents_unmapped hn]
  | handed hi hdev _ =>
    refine ⟨?_, fun m hm hr hc hlate => ?_⟩
    · rw [hdev.contents, direct_contents _ _ hno]
      exact hd.contents
    · rw [hdev.disk x id, direct_disk _ _ hno]
      exact hd.reads m (List.mem_of_mem_eraseIdx hm) hr hc hlate
  | served hi hdev he =>
    refine ⟨?_, fun m hm hr hc hlate => ?_⟩
    · rw [hdev.contents, direct_contents _ _ hno]
      exact hd.contents
    · rw [hdev.disk x id, direct_disk _ _ hno]
      exact hd.reads m (List.mem_of_mem_eraseIdx hm) hr hc hlate
  | @worked j item m error buf w hj hrun =>
    have hout : ¬ ((m.call item).bio.isWrite = true ∧ (m.call item).request.Covers x) :=
      fun hw => hno ⟨hw.1, h.covers hj hw.2⟩
    have hxR : x < f.world.core.sectorReserveStart := h.reserve ▸ hx
    refine ⟨?_, fun m' hm' hr hc hlate => ?_⟩
    · rw [handle_keeps hrun h.inv (h.fits hj) (hs item m hj) hxR hout]
      exact hd.contents
    · rw [handle_disk hrun h.inv (h.fits hj) hxR hout]
      exact hd.reads m' hm' hr hc hlate
  | idle _ => exact ⟨hd.contents, hd.reads⟩

/-- **A read that succeeds** delivers the data. -/
theorem Flight.Holds.delivers {R i x : ℕ} {d : Sector} {m : Msg} {data : ℕ → Sector}
    (h : f.Ok R) (hs : a.Safe E f)
    (hm : Advanced E b f a (.ended m 0 data) f') (hr : m.bio.isWrite = false) (hx : m.bio.Covers x)
    (hlate : i < m.born) (hd : f.Holds i x d) : data (x - m.bio.sector) = d := by
  cases hm with
  | @served j io pos _ _ w hj hdev he =>
    have hdisk := hd.reads m (List.mem_of_getElem? hj) hr hx hlate
    have hsec : m.bio.sector + (x - m.bio.sector) = x := Nat.add_sub_cancel' hx.1
    unfold Msg.after
    rw [if_neg (by simp [hr])]
    cases io with
    | ok =>
      show f.world.disk (m.bio.sector + (x - m.bio.sector)) = d
      rw [hsec]
      exact hdisk
    | fail junk nc => exact absurd (he rfl) (by simp [IoResult.isOk])
  | @worked j item _ _ _ w hj hrun =>
    obtain ⟨hsize, -⟩ := handle_success hrun
    obtain ⟨-, -, hstart, -, -⟩ := h.worker _ (List.mem_of_getElem? hj)
    have hcall : ¬ (m.call item).bio.isWrite = true := Bool.eq_false_iff.1 hr
    have hhonest := (handle_honest_iff h.inv (h.fits hj) hrun).2 fun g u hg => ?_
    · unfold BioCall.Honest at hhonest
      rw [if_neg hcall] at hhonest
      have hread := hhonest x ((h.covers_iff hj hsize).2 hx)
      rw [← hd.contents, ← hread]
      show data (x - m.bio.sector) = data (x - item.startSec)
      rw [hstart]
    · have hk := hs item m hj g u hg
      unfold BioCall.KeepsRound at hk
      unfold BioCall.HonestRound
      rw [if_neg hcall] at hk ⊢
      exact hk.zero

/-! ## Runs -/

/-- No bio is in flight yet. -/
structure Flight.Quiet (R : ℕ) (f : Flight) : Prop where
  inv : f.world.view.Inv
  reserve : f.world.core.sectorReserveStart = R
  direct : f.direct = []
  worker : f.worker = []
  now : f.now = 0

theorem Flight.Quiet.ok {R : ℕ} (h : f.Quiet R) : f.Ok R := by
  refine ⟨h.inv, h.reserve, ?_, ?_⟩
  · rw [h.direct]
    simp
  · rw [h.worker]
    simp

/-- A bio that is served was in flight. -/
theorem Advanced.ended {R : ℕ} {m : Msg} {error : ℤ} {data : ℕ → Sector} (h : f.Ok R)
    (hm : Advanced E b f a (.ended m error data) f') : m.born < f.now ∧ m.bio.Below R := by
  cases hm with
  | served hi hd he => exact h.direct _ (List.mem_of_getElem? hi)
  | worked hi hrun =>
    obtain ⟨hborn, hbelow, -⟩ := h.worker _ (List.mem_of_getElem? hi)
    exact ⟨hborn, hbelow⟩

section

variable {R : ℕ} {acts : List FlightAction} {evs : List FlightEvent} {st : ℕ → Flight}

theorem trace_advanced (ht : Trace (FlightAction.step E b) acts evs st) {j : ℕ} {e : FlightEvent}
    (hj : evs[j]? = some e) : ∃ hj : j < acts.length, Advanced E b (st j) acts[j] e (st (j + 1)) := by
  obtain ⟨hlt, rfl⟩ := List.getElem?_eq_some_iff.1 hj
  have hj' : j < acts.length := ht.length ▸ hlt
  exact ⟨hj', step_advanced (ht.step j hj' hlt)⟩

/-- The bios are in order after every step of a run, and the steps are counted. -/
theorem trace_ok (hp : b.startSect = 0) (ht : Trace (FlightAction.step E b) acts evs st) (h0 : (st 0).Quiet R)
    (hs : ∀ a ∈ acts, a.Below R) : ∀ i ≤ acts.length, (st i).Ok R ∧ (st i).now = i := by
  intro i
  induction i with
  | zero =>
    intro _
    exact ⟨h0.ok, h0.now⟩
  | succ i ih =>
    intro hi
    obtain ⟨hok, hnow⟩ := ih (by omega)
    have hadv := step_advanced (ht.step i hi (ht.length ▸ hi))
    exact ⟨hok.step hp (hs _ (List.getElem_mem hi)) hadv, hadv.now.trans (by rw [hnow])⟩

/-- **No update is lost.** Take a swap-enabled disk as a whole, no bio in flight, and any order of submissions,
completions and runs of the worker, such that bios end before the reserve and every step is safe: no write that
the disk completes finds one of its blocks mapped by then, and the worker changes nothing but what it writes.
Then a read that is submitted after a write of sector `x` was ended with error 0 delivers at `x` what the write
supplied, if it is ended with error 0 and no other write of `x` was served in between. -/
theorem no_lost_update (hb : bioGetScsiSwap b = true) (hp : b.startSect = 0)
    (ht : Trace (FlightAction.step E b) acts evs st) (h0 : (st 0).Quiet R) (hbelow : ∀ a ∈ acts, a.Below R)
    (hs : ∀ i (hi : i < acts.length), acts[i].Safe E (st i)) {x i k : ℕ} {m r : Msg} {data : ℕ → Sector}
    (h : ReadsAfter evs x i k m r data) : data (x - r.bio.sector) = m.data (x - m.bio.sector) := by
  have hok := trace_ok hp ht h0 hbelow
  obtain ⟨old, hwrote⟩ := h.wrote
  obtain ⟨hi, hmi⟩ := trace_advanced ht hwrote
  obtain ⟨hk, hmk⟩ := trace_advanced ht h.delivered
  obtain ⟨hoki, hnowi⟩ := hok i hi.le
  obtain ⟨hokk, hnowk⟩ := hok k hk.le
  have hxR : x < R := lt_of_lt_of_le h.write.2.2 (hmi.ended hoki).2.user
  have hik : i < k := by
    have hborn := (hmk.ended hokk).1
    have hlate := h.late
    omega
  -- from the end of the write to the end of the read
  have hholds : ∀ n, i + 1 + n ≤ k → (st (i + 1 + n)).Holds i x (m.data (x - m.bio.sector)) := by
    intro n
    induction n with
    | zero =>
      intro _
      have hend := hmi.writes hoki (hs i hi) h.write.1 h.write.2
      rwa [hnowi] at hend
    | succ n ih =>
      intro hn
      have hj : i + 1 + n < acts.length := by omega
      have hev : i + 1 + n < evs.length := ht.length ▸ hj
      obtain ⟨_, hmj⟩ := trace_advanced ht (List.getElem?_eq_getElem hev)
      have hskip := h.last (i + 1 + n) _ (by omega) (by omega) (List.getElem?_eq_getElem hev)
      refine (ih (by omega)).step hb hp (hok _ hj.le).1 hxR (hbelow _ (List.getElem_mem hj)) (hs _ hj) hmj hskip
  have hlast := hholds (k - (i + 1)) (by omega)
  rw [Nat.add_sub_cancel' hik] at hlast
  exact hlast.delivers hokk (hs k hk) hmk h.read.1 h.read.2 h.late

end

/-! ## A device without faults -/

theorem SwapBioItem.Gets.mem {item : SwapBioItem} {bio : Bio} {buf : ℕ → Sector} {g : Seg} {u : World}
    (h : item.Gets E bio buf s g u) : g ∈ visited (item.request bio buf).start (item.request bio buf).count := by
  obtain ⟨-, s₁, -, -, gs, gs', hgs, -⟩ := h
  rw [hgs]
  exact List.mem_append_right _ List.mem_cons_self

theorem Env.Faultless.swapWrite' {p start count : ℕ} {buf : ℕ → Sector} {ok : Bool} (hE : E.Faultless)
    (h : (swapWrite' E p start count buf).run s = some (ok, s')) : ok = true := by
  unfold ScsiSwap.swapWrite' at h
  rw [run_get_bind] at h
  split at h
  · exact (run_oops h).elim
  dsimp only at h
  rw [run_set_bind] at h
  have hheap : ∀ i, (s.setInfo p i).heap p = i := fun i => Function.update_self ..
  unfold flushSwapInfoData at h
  rw [run_get_bind, hheap] at h
  obtain ⟨u, hw, -⟩ := hE.hdWrite _ _ _ _ _
  exact (run_det hw h).1

/-- Without faults the worker changes nothing but what it writes. -/
theorem Env.Faultless.keeps (hE : E.Faultless) {c : BioCall} (hf : c.Fits s)
    (hbad : c.bio.isWrite = false → c.item.badSec = noBadSec) : c.Keeps E s := by
  intro g u hgets
  have hmem : g ∈ visited c.request.start c.request.count := hgets.mem
  have hg := hf.segsOk.ok g hmem
  unfold BioCall.KeepsRound
  split
  · refine ⟨fun p d t _ _ hfail => absurd (hE.swapWrite' hfail) (by simp), ?_⟩
    intro u₁ index t _ _ k hk
    refine copied_of_reads hE.read ?_
    have hout := hk.1
    unfold Outside at hout
    rwa [hg.align] at hout
  · rename_i hr
    have hread : ¬ Unread E (badIndex c.item.badSec) g u := by
      rintro ⟨-, hblk | hfail⟩
      · rw [hbad (Bool.eq_false_iff.2 hr)] at hblk
        rw [visited_eq hf.le hf.count] at hmem
        obtain ⟨i, -, rfl⟩ := mem_segments.1 hmem
        have hneg : (-1 : ℤ) = ((c.request.start / 128 + i : ℕ) : ℤ) := hblk
        omega
      · rw [hE.read] at hfail
        exact absurd hfail (by simp [IoResult.isOk])
    exact ⟨fun hun => absurd hun hread, fun hun => absurd hun hread⟩

/-! ## Two runs

A write of sector 5 and one of sector 6, which fails on the disk and goes to the worker; then a read of sector
5. -/

/-- One sector of bytes `c`, from or to a sector of the whole disk. -/
def FlightAction.one (isWrite : Bool) (sector : ℕ) (c : ByteCodec.Byte) : FlightAction :=
  .submit ⟨isWrite, sector, 512, true⟩ fun _ _ => c

/-- How a bio for sector 5 was ended: with the first byte it came with, and the one it was left with. -/
structure Brief where
  isWrite : Bool
  error : ℤ
  born : ℕ
  supplied : ByteCodec.Byte
  delivered : ByteCodec.Byte
  deriving DecidableEq

/-- Whether a write of sector 5 was served, and how a bio for that sector was ended. -/
def FlightEvent.brief : FlightEvent → Bool × Option Brief
  | .ended m error data => (m.bio.isWrite && decide (m.bio.Covers 5), if m.bio.Covers 5 then
      some ⟨m.bio.isWrite, error, m.born, m.data (5 - m.bio.sector) 0, data (5 - m.bio.sector) 0⟩ else none)
  | .handed m => (m.bio.isWrite && decide (m.bio.Covers 5), none)
  | _ => (false, none)

theorem brief_ended {e : FlightEvent} {r : Brief} (h : e.brief.2 = some r) : ∃ m data, e = .ended m r.error data ∧
    m.bio.isWrite = r.isWrite ∧ m.bio.Covers 5 ∧ m.born = r.born ∧ m.data (5 - m.bio.sector) 0 = r.supplied ∧
    data (5 - m.bio.sector) 0 = r.delivered := by
  cases e with
  | ended m error data =>
    unfold FlightEvent.brief at h
    dsimp only at h
    split at h
    · obtain rfl := Option.some.inj h
      exact ⟨m, data, rfl, rfl, ‹_›, rfl, rfl, rfl⟩
    · exact absurd h (by simp)
  | submitted m => exact absurd h (by simp [FlightEvent.brief])
  | refused m error => exact absurd h (by simp [FlightEvent.brief])
  | handed m => exact absurd h (by simp [FlightEvent.brief])
  | idle => exact absurd h (by simp [FlightEvent.brief])

theorem brief_writes {e : FlightEvent} (h : e.brief.1 = false) : ¬ e.Writes 5 := by
  rintro hw
  cases e with
  | ended m error data => simp [FlightEvent.brief, hw.1, hw.2] at h
  | handed m => simp [FlightEvent.brief, hw.1, hw.2] at h
  | submitted m => exact hw
  | refused m error => exact hw
  | idle => exact hw

/-- Start a driver on a disk of 1000 user sectors, and take the steps. -/
def flightOf (E : Env) (acts : List FlightAction) : SwapM (Bool × List (Bool × Option Brief)) := do
  let ok ← scsiSwapInit E 1000
  fun s => ((runAll (FlightAction.step E (.disk 1000)) acts).run ⟨s, [], [], 0⟩).map fun r =>
    ((ok, r.1.map FlightEvent.brief), r.2.world)

theorem flightOf_run {acts : List FlightAction} {ok : Bool} {bs : List (Bool × Option Brief)}
    (h : ((flightOf E acts).run s).map Prod.fst = some (ok, bs)) :
    ∃ w evs st, (scsiSwapInit E 1000).run s = some (ok, w) ∧ st 0 = ⟨w, [], [], 0⟩ ∧
      Trace (FlightAction.step E (.disk 1000)) acts evs st ∧ evs.map FlightEvent.brief = bs := by
  obtain ⟨s', h⟩ := run_of_result h
  unfold flightOf at h
  obtain ⟨ok', w, h1, h2⟩ := run_bind_iff.1 h
  obtain ⟨⟨evs, f⟩, hrun, he⟩ := Option.map_eq_some_iff.1 h2
  obtain ⟨hres, -⟩ := Prod.mk.inj he
  obtain ⟨rfl, rfl⟩ := Prod.mk.inj hres
  obtain ⟨st, ht, h0, -⟩ := runAll_trace hrun
  exact ⟨w, evs, st, h1, h0, ht, rfl⟩

/-- The two bios for sector 5, from what is known of the events. -/
theorem readsAfter_of_brief {evs : List FlightEvent} {i k n n' : ℕ} {c c' d d' : ByteCodec.Byte} (hlate : i < n')
    (hi : (evs.map FlightEvent.brief)[i]? = some (true, some ⟨true, 0, n, c, c'⟩))
    (hk : (evs.map FlightEvent.brief)[k]? = some (false, some ⟨false, 0, n', d', d⟩))
    (hno : ∀ j, i < j → j < k → ∀ q ∈ (evs.map FlightEvent.brief)[j]?, q.1 = false) :
    ∃ m r data, ReadsAfter evs 5 i k m r data ∧ m.data (5 - m.bio.sector) 0 = c ∧
      data (5 - r.bio.sector) 0 = d := by
  rw [List.getElem?_map, Option.map_eq_some_iff] at hi hk
  obtain ⟨e, hi, he⟩ := hi
  obtain ⟨e', hk, he'⟩ := hk
  obtain ⟨m, old, rfl, hw, hmx, -, hc, -⟩ := brief_ended (congrArg Prod.snd he)
  obtain ⟨r, data, rfl, hr, hrx, hborn, -, hd⟩ := brief_ended (congrArg Prod.snd he')
  refine ⟨m, r, data, ⟨⟨hw, hmx⟩, ⟨old, hi⟩, ⟨hr, hrx⟩, hborn ▸ hlate, hk, ?_⟩, hc, hd⟩
  intro j e'' hij hjk hj
  refine brief_writes (hno j hij hjk e''.brief ?_)
  rw [List.getElem?_map, hj]
  rfl

/-- The write of sector 5 is still in flight when the other one fails. -/
def overtaken : List FlightAction :=
  [.one true 5 1, .one true 6 2, .complete 1 (.fail (fun _ => none) false) 6, .work 0, .complete 0 .ok 5,
    .one false 5 0, .work 0]

/-- It is complete by then. -/
def inOrder : List FlightAction :=
  [.one true 5 1, .complete 0 .ok 5, .one true 6 2, .complete 0 (.fail (fun _ => none) false) 6, .work 0,
    .one false 5 0, .work 0]

/-- Without faults of the worker's commands, a step is safe if the disk takes no write while there are
mappings. -/
theorem Flight.Ok.safe {R : ℕ} (h : f.Ok R) (hE : E.Faultless)
    (hc : ∀ i pos, a = .complete i .ok pos → f.world.core.infoList = []) : a.Safe E f := by
  cases a with
  | submit bio data => trivial
  | work i =>
    intro item m hi
    obtain ⟨-, -, hitem⟩ := h.worker _ (List.mem_of_getElem? hi)
    exact hE.keeps (h.fits hi) hitem.bad
  | complete i io pos =>
    cases io with
    | fail junk nc => exact fun m _ _ hok => absurd hok (by simp [IoResult.isOk])
    | ok =>
      intro m _ _ _ x _
      rw [find_view]
      refine View.find_none.2 fun p hp => ?_
      rw [show f.world.view.list = [] from hc i pos rfl] at hp
      exact absurd hp (by simp)

theorem Advanced.submit {bio : Bio} {data : ℕ → Sector} (h : Advanced E b f a e f') (ha : a = .submit bio data) :
    f'.world.view = f.world.view := by
  subst ha
  cases h with
  | diverted hd => exact hd.view
  | refused hd => exact hd.view
  | queued hd _ => exact hd.view
  | idle _ => rfl

theorem inOrder_events :
    ((flightOf (Env.refusing fun _ _ => false) inOrder).run World.blank).map Prod.fst =
      some (true, [(false, none),
      (true, some ⟨true, 0, 0, 1, 1⟩), (false, none), (false, none), (false, none), (false, none),
      (false, some ⟨false, 0, 5, 0, 1⟩)]) := by
  decide +kernel

theorem overtaken_events :
    ((flightOf (Env.refusing fun _ _ => false) overtaken).run World.blank).map Prod.fst =
      some (true, [(false, none),
      (false, none), (false, none), (false, none), (true, some ⟨true, 0, 0, 1, 1⟩), (false, none),
      (false, some ⟨false, 0, 5, 0, 0⟩)]) := by
  decide +kernel

/-- The worker makes a mapping for the block after sector 5 was written, and copies the sector to it. -/
theorem no_lost_update_copied :
    let E := Env.refusing fun _ _ => false
    ∃ s evs st m r data, (scsiSwapInit E 1000).run World.blank = some (true, s) ∧ st 0 = ⟨s, [], [], 0⟩ ∧
      Trace (FlightAction.step E (.disk 1000)) inOrder evs st ∧ ReadsAfter evs 5 1 6 m r data ∧
      data (5 - r.bio.sector) = m.data (5 - m.bio.sector) := by
  intro E
  obtain ⟨s, evs, st, hinit, h0, ht, hb⟩ := flightOf_run inOrder_events
  have hwrote : (evs.map FlightEvent.brief)[1]? = some (true, some ⟨true, 0, 0, 1, 1⟩) := by
    rw [hb]
    rfl
  have hread : (evs.map FlightEvent.brief)[6]? = some (false, some ⟨false, 0, 5, 0, 1⟩) := by
    rw [hb]
    rfl
  obtain ⟨m, r, data, hreads, -, -⟩ := readsAfter_of_brief (by decide) hwrote hread (by
    rw [hb]
    intro j hj hj'
    interval_cases j <;> simp)
  obtain ⟨hv, hres, hlist⟩ := scsiSwapInit_zero (refusing_noForgedEntry _) (by decide) (fun _ _ => rfl) hinit
  have hquiet : (st 0).Quiet 1000 := by
    rw [h0]
    exact ⟨hv, hres, rfl, rfl, rfl⟩
  have hbelow : ∀ a ∈ inOrder, a.Below 1000 := by
    unfold inOrder
    simp only [List.forall_mem_cons]
    exact ⟨⟨by decide, by decide⟩, trivial, ⟨by decide, by decide⟩, trivial, trivial,
      ⟨by decide, by decide⟩, trivial,
      by simp⟩
  have hok := trace_ok rfl ht hquiet hbelow
  refine ⟨s, evs, st, m, r, data, hinit, h0, ht, hreads, no_lost_update rfl rfl ht hquiet hbelow ?_ hreads⟩
  intro i hi
  refine (hok i hi.le).1.safe faultless fun j pos heq => ?_
  -- the disk takes a write in step 1 only, and there is no mapping yet
  have hone : i = 1 := by
    have hi' : i < 7 := hi
    interval_cases i
    all_goals first | rfl | exact absurd heq (by simp [inOrder, FlightAction.one])
  subst hone
  have hlen : 0 < evs.length := by
    rw [ht.length]
    decide
  obtain ⟨_, hfirst⟩ := trace_advanced ht (List.getElem?_eq_getElem hlen)
  have hview : (st 1).world.view = s.view := by
    rw [hfirst.submit rfl, h0]
  have hlist' : (st 1).world.core.infoList = s.core.infoList := congrArg View.list hview
  rw [hlist', hlist]

/-- **A lost update.** The write of sector 5 is sent to the disk; the other one fails, and the worker makes a
mapping for the block, with what sector 5 has on the disk so far; then the write of sector 5 is complete, and a
read of the sector delivers the old zeros from the mapping. No command of the worker fails. -/
theorem update_lost :
    let E := Env.refusing fun _ _ => false
    ∃ s evs st m r data, (scsiSwapInit E 1000).run World.blank = some (true, s) ∧ st 0 = ⟨s, [], [], 0⟩ ∧
      Trace (FlightAction.step E (.disk 1000)) overtaken evs st ∧ ReadsAfter evs 5 4 6 m r data ∧
      data (5 - r.bio.sector) ≠ m.data (5 - m.bio.sector) := by
  intro E
  obtain ⟨s, evs, st, hinit, h0, ht, hb⟩ := flightOf_run overtaken_events
  have hwrote : (evs.map FlightEvent.brief)[4]? = some (true, some ⟨true, 0, 0, 1, 1⟩) := by
    rw [hb]
    rfl
  have hread : (evs.map FlightEvent.brief)[6]? = some (false, some ⟨false, 0, 5, 0, 0⟩) := by
    rw [hb]
    rfl
  obtain ⟨m, r, data, hreads, hm, hr⟩ := readsAfter_of_brief (by decide) hwrote hread (by
    rw [hb]
    intro j hj hj'
    interval_cases j
    simp)
  refine ⟨s, evs, st, m, r, data, hinit, h0, ht, hreads, fun heq => ?_⟩
  rw [heq, hm] at hr
  exact absurd hr (by decide)

end ScsiSwap
