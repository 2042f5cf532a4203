import ScsiSwap.Proof.Rounds
import ScsiSwap.Proof.Spans
import ScsiSwap.Spec.Bio

/-!
# What a diverted bio touches

`generic_make_request` diverts a bio before it looks at the end of the device, and
`scsi_swap_core_can_swap` looks at the first sector only. So the loops may come to a block beyond
`sector_reserve_start` that is not mapped, and then go to the disk there.

* `Request.Gets`: the rounds a request gets to, and the state it gets there in;
* `Direct`: the sectors a round reads or writes in place;
* `direct_below_reserve_iff`: when all of them are user sectors;
* `hook_agrees_iff`: when a diverted bio goes to the sectors it has on the disk.
-/

namespace ScsiSwap

open StateOption

variable {E : Env} {s s' t u u' : World} {bad : ℤ} {buf : ℕ → Sector} {g : Seg} {gs : List Seg}

/-! ## Submission -/

/-- `swap_bio` leaves the core alone, and queues what it was given, for a live device and a user
sector only. -/
theorem swapBio_run {b : Bdev} {bio : Bio} {sector badSec : ℕ} {size error : ℤ} {o : Option SwapBioItem}
    (h : (swapBio E b bio sector size badSec error).run s = some (o, s')) :
    s'.core = s.core ∧ ∀ item, o = some item →
      item = ⟨sector, size, badSec⟩ ∧ s.core.deviceDead = 0 ∧ sector < s.core.sectorReserveStart := by
  unfold swapBio at h
  split at h
  · obtain ⟨rfl, rfl⟩ := run_pure_iff.1 h; exact ⟨rfl, fun _ h => absurd h (by simp)⟩
  split at h
  · obtain ⟨rfl, rfl⟩ := run_pure_iff.1 h; exact ⟨rfl, fun _ h => absurd h (by simp)⟩
  split at h
  · obtain ⟨rfl, rfl⟩ := run_pure_iff.1 h; exact ⟨rfl, fun _ h => absurd h (by simp)⟩
  rw [run_get_bind] at h
  split at h
  · obtain ⟨rfl, rfl⟩ := run_pure_iff.1 h; exact ⟨rfl, fun _ h => absurd h (by simp)⟩
  rename_i hcan
  obtain ⟨ok, s₁, h1, h2⟩ := run_bind_iff.1 h
  have hs : s₁.core = s.core := by
    unfold kmalloc at h1
    rw [run_get_bind, run_set_bind] at h1
    obtain ⟨-, rfl⟩ := run_pure_iff.1 h1
    rfl
  simp only [World.scsiSwapCoreCanSwap, Bool.not_eq_true', decide_eq_false_iff_not, not_not] at hcan
  split at h2 <;> obtain ⟨rfl, rfl⟩ := run_pure_iff.1 h2
  · exact ⟨hs, fun item hi => ⟨(Option.some.inj hi).symm, hcan⟩⟩
  · exact ⟨hs, fun _ h => absurd h (by simp)⟩

theorem genericMakeRequest_diverted {b : Bdev} {bio : Bio} {item : SwapBioItem}
    (h : (genericMakeRequest E b bio).run s = some (.diverted item, s')) :
    item = ⟨bio.sector, s32 bio.size, noBadSec⟩ ∧ bio.sector < s.core.sectorReserveStart := by
  unfold genericMakeRequest at h
  rw [run_get_bind] at h
  split at h
  · obtain ⟨o, s₁, h1, h2⟩ := run_bind_iff.1 h
    cases o with
    | none => exact absurd (run_pure_iff.1 h2).1 (by simp)
    | some i =>
      obtain ⟨hi, -⟩ := run_pure_iff.1 h2
      obtain rfl := Route.diverted.inj hi
      obtain ⟨hitem, -, hlt⟩ := (swapBio_run h1).2 _ rfl
      exact ⟨hitem, hlt⟩
  · split at h
    · exact absurd (run_pure_iff.1 h).1 (by simp)
    · dsimp only at h
      split at h <;> exact absurd (run_pure_iff.1 h).1 (by simp)

/-! ## Rounds -/

def World.entered (s : World) : World := { s with core := { s.core with user := s.core.user + 1 } }

/-- The request gets to the round for segment `g`, in state `u`: the rounds before it did not fail. -/
def Request.Gets (E : Env) (o : Request) (s : World) (g : Seg) (u : World) : Prop :=
  s.core.deviceDead = 0 ∧ ∃ gs gs', visited o.start o.count = gs ++ g :: gs' ∧
    if o.isWrite then ∃ r, r ≠ .err ∧ (writeSegs E (badIndex o.bad) o.buf gs).run s.entered = some (r, u)
    else ∃ r buf, r ≠ .err ∧ (readSegs E (badIndex o.bad) gs o.buf).run s.entered = some ((r, buf), u)

/-- The same for the request the worker makes for an item. -/
def SwapBioItem.Gets (E : Env) (item : SwapBioItem) (bio : Bio) (buf : ℕ → Sector) (s : World) (g : Seg)
    (u : World) : Prop :=
  0 ≤ item.size ∧ ∃ s₁, (kmalloc E).run s = some (true, s₁) ∧ (item.request bio buf).Gets E s₁ g u

/-- The round for `g` reads or writes sector `x` in place: the block is neither mapped nor known to be
bad. -/
def Direct (bad : ℤ) (u : World) (g : Seg) (x : ℕ) : Prop :=
  u.swapFindSwapInfo g.bStart = none ∧ bad ≠ g.blk ∧ g.area x

theorem Request.Gets.grows {o : Request} (h : o.Gets E s g u) : s.view.Grows u.view := by
  obtain ⟨-, gs, gs', -, h⟩ := h
  split at h
  · obtain ⟨r, -, h⟩ := h
    exact (writeSegs_rounds grows_roundRel (fun _ _ _ _ hb => (coreWriteBlock_step hb).grows) h :
      s.entered.view.Grows u.view)
  · obtain ⟨r, b, -, h⟩ := h
    exact (readSegs_rounds grows_roundRel (fun _ _ _ _ _ _ hb => (coreReadBlock_step hb).grows) h :
      s.entered.view.Grows u.view)

theorem View.Grows.find_none {v w : View} {b : ℕ} (h : v.Grows w) (hold : ∀ p ∈ v.list, p < v.brk)
    (hn : w.find b = none) : v.find b = none := by
  rw [View.find_none] at hn ⊢
  intro p hp
  rw [← h.src p (hold p hp)]
  exact hn p (h.list.subset hp)

/-! ## A device without faults -/

/-- The tables of the mappings are as before, and none has lost its data. -/
structure Kept (u u' : World) : Prop where
  core : u'.core = u.core
  table : ∀ p, (u'.heap p).table = (u.heap p).table
  data : ∀ p, (u.heap p).data.isSome → (u'.heap p).data.isSome

theorem Kept.refl (u : World) : Kept u u := ⟨rfl, fun _ => rfl, fun _ h => h⟩

theorem Kept.trans (h : Kept s t) (h' : Kept t u) : Kept s u :=
  ⟨h'.core.trans h.core, fun p => (h'.table p).trans (h.table p), fun p hp => h'.data p (h.data p hp)⟩

theorem Kept.find (h : Kept u u') (b : ℕ) : u'.swapFindSwapInfo b = u.swapFindSwapInfo b := by
  unfold World.swapFindSwapInfo
  rw [h.core]
  simp only [h.table]

theorem kept_of_device {d : ℕ → Sector} {n : ℕ} {l : List Sent} :
    Kept u { u with disk := d, tick := n, sent := l } :=
  ⟨rfl, fun _ => rfl, fun _ h => h⟩

structure Env.Faultless (E : Env) : Prop where
  read : ∀ n c, E.read n c = .ok
  write : ∀ n c b, E.write n c b = .ok
  kmalloc : ∀ n, E.kmalloc n = true

theorem Env.Faultless.hdWrite (hE : E.Faultless) (w : Writer) (sector n : ℕ) (buf : ℕ → Sector) (u : World) :
    ∃ u', (hdWriteSectorRetry E w sector n buf).run u = some (true, u') ∧ Kept u u' := by
  unfold hdWriteSectorRetry
  rw [hdWriteSector_run, hE.write]
  exact ⟨_, rfl, kept_of_device⟩

theorem Env.Faultless.hdRead (hE : E.Faultless) (sector n : ℕ) (u : World) :
    ∃ f u', (hdReadSectorRetry E sector n).run u = some ((true, f), u') ∧ Kept u u' := by
  unfold hdReadSectorRetry
  rw [hdReadSector_run, hE.read]
  exact ⟨_, _, rfl, kept_of_device⟩

/-- No listed mapping has a null data pointer. -/
def World.HasData (u : World) : Prop := ∀ p ∈ u.core.infoList, (u.heap p).data.isSome

instance (u : World) : Decidable u.HasData := inferInstanceAs (Decidable (∀ p ∈ _, _))

theorem Kept.hasData (h : Kept u u') (hu : u.HasData) : u'.HasData :=
  fun p hp => h.data p (hu p (h.core ▸ hp))

theorem World.HasData.find (hu : u.HasData) {b p : ℕ} (h : u.swapFindSwapInfo b = some p) :
    ∃ d, (u.heap p).data = some d :=
  Option.isSome_iff_exists.1 (hu p (View.find_some (find_view b ▸ h)).1)

theorem kept_setInfo {p : ℕ} {i : SwapInfo} (ht : i.table = (u.heap p).table) (hd : i.data.isSome) :
    Kept u (u.setInfo p i) := by
  have hq : ∀ q, q ≠ p → (u.setInfo p i).heap q = u.heap q := fun q hq => Function.update_of_ne hq ..
  have hp : (u.setInfo p i).heap p = i := Function.update_self ..
  refine ⟨rfl, fun q => ?_, fun q hdq => ?_⟩
  · by_cases h : q = p
    · rw [h, hp, ht]
    · rw [hq q h]
  · by_cases h : q = p
    · rw [h, hp]; exact hd
    · rw [hq q h]; exact hdq

theorem Env.Faultless.writeBlock (hE : E.Faultless) (buf : ℕ → Sector) (hb : bad ≠ g.blk) (hu : u.HasData) :
    ∃ u', (coreWriteBlock E bad g buf).run u = some (.ok, u') ∧ Kept u u' := by
  unfold coreWriteBlock
  rw [run_get_bind]
  cases hf : u.swapFindSwapInfo g.bStart with
  | some p =>
    obtain ⟨d, hd⟩ := hu.find hf
    dsimp only
    let d' := copyIn d (dataOffset g.sStart (u32 (swapSectorAlign g.sStart))) g.sCount fun k => buf (g.off + k)
    let u₁ := u.setInfo p { u.heap p with data := some d' }
    have hp : u₁.heap p = { u.heap p with data := some d' } := Function.update_self ..
    obtain ⟨u', hw, hk⟩ := hE.hdWrite .block (u.heap p).table.swapSec.toNat
      (u.heap p).table.secSize.toNat (blockBuf d') u₁
    have hflush : (flushSwapInfoData E p).run u₁ = some (true, u') := by
      unfold flushSwapInfoData
      rw [run_get_bind, hp]
      exact hw
    have hwrite' : (swapWrite' E p g.sStart g.sCount fun k => buf (g.off + k)).run u = some (true, u') := by
      unfold swapWrite'
      rw [run_get_bind, hd]
      exact hflush
    have hwrite : (swapWrite E p g.sStart g.sCount fun k => buf (g.off + k)).run u = some (.ok, u') := by
      unfold swapWrite
      rw [run_bind_of hwrite']
      rfl
    have hset : Kept u u₁ := kept_setInfo rfl rfl
    refine ⟨u', ?_, hset.trans hk⟩
    rw [run_bind_of hwrite]
    rfl
  | none =>
    obtain ⟨u', hw, hk⟩ := hE.hdWrite .user g.sStart g.sCount (fun k => buf (g.off + k)) u
    dsimp only
    rw [if_pos hb]
    refine ⟨u', ?_, hk⟩
    rw [run_bind_of hw]
    rfl

theorem Env.Faultless.readBlock (hE : E.Faultless) (buf : ℕ → Sector) (hb : bad ≠ g.blk) (hu : u.HasData) :
    ∃ buf' u', (coreReadBlock E bad g buf).run u = some ((.ok, buf'), u') ∧ Kept u u' := by
  unfold coreReadBlock
  rw [run_get_bind]
  cases hf : u.swapFindSwapInfo g.bStart with
  | some p =>
    obtain ⟨d, hd⟩ := hu.find hf
    have hread : ∃ buf', (swapRead' p g.sStart g.sCount buf g.off).run u = some (buf', u) := by
      unfold swapRead'
      rw [run_get_bind, hd]
      exact ⟨_, rfl⟩
    obtain ⟨buf', hread⟩ := hread
    dsimp only
    rw [run_bind_of hread]
    exact ⟨_, _, rfl, .refl _⟩
  | none =>
    obtain ⟨f, u', hr, hk⟩ := hE.hdRead g.sStart g.sCount u
    dsimp only
    rw [if_pos hb]
    refine ⟨fillBuf buf g.off f, u', ?_, hk⟩
    rw [bind_assoc, run_bind_of hr]
    rfl

/-- Without faults every round before a block known to be bad is passed. -/
theorem Env.Faultless.writeSegs (hE : E.Faultless) (buf : ℕ → Sector) :
    ∀ {gs : List Seg} {u : World}, (∀ g ∈ gs, bad ≠ g.blk) →
    u.HasData → ∃ u', (writeSegs E bad buf gs).run u = some (.ok, u') ∧ Kept u u' := by
  intro gs
  induction gs with
  | nil => intro u _ _; exact ⟨u, rfl, .refl _⟩
  | cons g gs ih =>
    intro u hb hu
    obtain ⟨u₁, h1, hk⟩ := hE.writeBlock buf (hb g List.mem_cons_self) hu
    obtain ⟨u₂, h2, hk'⟩ := ih (fun g hg => hb g (List.mem_cons_of_mem _ hg)) (hk.hasData hu)
    refine ⟨u₂, ?_, hk.trans hk'⟩
    unfold ScsiSwap.writeSegs
    rw [run_bind_of h1, if_neg (by decide), run_bind_of h2]
    rfl

theorem Env.Faultless.readSegs (hE : E.Faultless) :
    ∀ {gs : List Seg} (buf : ℕ → Sector) {u : World}, (∀ g ∈ gs, bad ≠ g.blk) →
    u.HasData → ∃ buf' u', (readSegs E bad gs buf).run u = some ((.ok, buf'), u') ∧ Kept u u' := by
  intro gs
  induction gs with
  | nil => intro buf u _ _; exact ⟨buf, u, rfl, .refl _⟩
  | cons g gs ih =>
    intro buf u hb hu
    obtain ⟨buf₁, u₁, h1, hk⟩ := hE.readBlock buf (hb g List.mem_cons_self) hu
    obtain ⟨buf₂, u₂, h2, hk'⟩ := ih buf₁ (fun g hg => hb g (List.mem_cons_of_mem _ hg)) (hk.hasData hu)
    refine ⟨buf₂, u₂, ?_, hk.trans hk'⟩
    unfold ScsiSwap.readSegs
    rw [run_bind_of h1]
    dsimp only
    rw [if_neg (by decide), run_bind_of h2]
    rfl

theorem faultless : (Env.refusing fun _ _ => false).Faultless := ⟨fun _ _ => rfl, fun _ _ _ => rfl, fun _ => rfl⟩

/-- Without faults, a request with no block known to be bad gets to each of its rounds, up to the block
number that stands for no bad block. -/
theorem Request.gets_faultless {o : Request} (hE : E.Faultless) (hdead : s.core.deviceDead = 0) (hs : s.HasData)
    {gs gs' : List Seg} (hv : visited o.start o.count = gs ++ g :: gs') (hb : ∀ g ∈ gs, badIndex o.bad ≠ g.blk) :
    ∃ u, o.Gets E s g u ∧ Kept s.entered u := by
  cases hw : o.isWrite with
  | true =>
    obtain ⟨u, hrun, hk⟩ := hE.writeSegs o.buf hb (show s.entered.HasData from hs)
    refine ⟨u, ⟨hdead, gs, gs', hv, ?_⟩, hk⟩
    rw [hw, if_pos rfl]
    exact ⟨.ok, by decide, hrun⟩
  | false =>
    obtain ⟨buf, u, hrun, hk⟩ := hE.readSegs o.buf hb (show s.entered.HasData from hs)
    refine ⟨u, ⟨hdead, gs, gs', hv, ?_⟩, hk⟩
    rw [hw, if_neg (by decide)]
    exact ⟨.ok, buf, by decide, hrun⟩

/-! ## The reserve -/

/-- Every sector of the bio that is not a user sector is in a mapped block. Sectors the loops do not
get to under their own number, because of the 32-bit arithmetic of block starts, do not count. -/
def World.MapsBeyond (t : World) (bio : Bio) : Prop :=
  ∀ x, bio.sector ≤ x → x < bio.sector + bio.sectors → t.core.sectorReserveStart ≤ x →
    (x / 128 = bio.sector / 128 ∨ x < 2 ^ 32) → x / 128 % 2 ^ 32 ≠ 2 ^ 32 - 1 →
    (t.swapFindSwapInfo (128 * (x / 128) % 2 ^ 32)).isSome

theorem s32_neg_one {n : ℕ} : s32 (n : ℤ) = -1 ↔ n % 2 ^ 32 = 2 ^ 32 - 1 := by unfold s32; omega

theorem visited_split {start count i : ℕ} (hc : count + 128 ≤ 2 ^ 31) (hi : i < blockCount start count) :
    ∃ gs', visited start count =
      (List.range i).map (segment32 start count) ++ segment32 start count i :: gs' := by
  obtain ⟨n, hn⟩ : ∃ n, blockCount start count = i + (n + 1) := ⟨blockCount start count - i - 1, by omega⟩
  refine ⟨(List.range' (i + 1) n).map (segment32 start count), ?_⟩
  rw [visited_eq_segment32 hc, hn, List.range_eq_range', List.range_eq_range', ← List.range'_append_1,
    List.map_append, Nat.zero_add]
  rfl

/-- **A diverted bio goes to the disk among the user sectors only, whatever the device does, exactly if
every sector of it beyond them is in a mapped block** (or the worker refuses it). `s` is the state at
submission, `t` the one the worker finds. -/
theorem direct_below_reserve_iff {E₀ : Env} {b : Bdev} {bio : Bio} {item : SwapBioItem}
    (hsize : bio.size < 2 ^ 32) (hdiv : (genericMakeRequest E₀ b bio).run s = some (.diverted item, s'))
    (hres : t.core.sectorReserveStart = s.core.sectorReserveStart)
    (hold : ∀ p ∈ t.core.infoList, p < t.brk) (hdata : t.HasData) :
    (∀ E buf g u x, item.Gets E bio buf t g u → Direct (badIndex item.badSec) u g x →
      x < t.core.sectorReserveStart) ↔
    (t.core.deviceDead = 0 → bio.size < 2 ^ 31 → t.MapsBeyond bio) := by
  obtain ⟨rfl, hlt⟩ := genericMakeRequest_diverted hdiv
  rw [← hres] at hlt
  have hbad : badIndex noBadSec = -1 := rfl
  have hcount : bio.size < 2 ^ 31 → (s32 bio.size).toNat >>> 9 = bio.sectors := by
    intro h
    rw [s32_ofNat h]
    rfl
  have hshort : bio.size < 2 ^ 31 → bio.sectors < 2 ^ 22 := by
    intro h
    unfold Bio.sectors
    rw [Nat.shiftRight_eq_div_pow]
    omega
  constructor
  · intro h hdead hsz x h1 h2 hx hown hblk
    by_contra hnone
    have hc := hshort hsz
    obtain ⟨hi, harea⟩ := exists_segment h1 h2
    obtain ⟨gs', hv⟩ := visited_split (show bio.sectors + 128 ≤ 2 ^ 31 by omega) hi
    have hidx : bio.sector / 128 + (x / 128 - bio.sector / 128) = x / 128 := by omega
    generalize x / 128 - bio.sector / 128 = i at *
    let E := Env.refusing fun _ _ => false
    let o := (⟨bio.sector, s32 bio.size, noBadSec⟩ : SwapBioItem).request bio fun _ => zeroSector
    have hov : visited o.start o.count = (List.range i).map (segment32 bio.sector bio.sectors) ++
        segment32 bio.sector bio.sectors i :: gs' := (congrArg (visited bio.sector) (hcount hsz)).trans hv
    have hbefore : ∀ g ∈ (List.range i).map (segment32 bio.sector bio.sectors), badIndex o.bad ≠ g.blk := by
      intro g hg
      obtain ⟨j, hj, rfl⟩ := List.mem_map.1 hg
      have hj := List.mem_range.1 hj
      refine fun heq => absurd (s32_neg_one.1 heq.symm) ?_
      omega
    obtain ⟨u, hgets, hkept⟩ := Request.gets_faultless
      (s := { t with tick := t.tick + 1 }) faultless hdead hdata hov hbefore
    have hbelow : x < t.core.sectorReserveStart := by
      refine h E (fun _ => zeroSector) _ u x
        ⟨(by rw [s32_ofNat hsz]; omega : 0 ≤ s32 bio.size), _, rfl, hgets⟩ ⟨?_, ?_, ?_⟩
      · rw [hkept.find]
        show t.swapFindSwapInfo (128 * (bio.sector / 128 + i) % 2 ^ 32) = none
        rw [hidx]
        exact Option.not_isSome_iff_eq_none.1 hnone
      · refine fun heq => hblk ?_
        rw [← hidx]
        exact s32_neg_one.1 heq.symm
      · have hstart : (segment32 bio.sector bio.sectors i).sStart = segStart bio.sector i := by
          show (if i = 0 then bio.sector else 128 * (bio.sector / 128 + i) % 2 ^ 32) = _
          unfold segStart
          split
          · rfl
          · omega
        unfold Seg.area
        rw [hstart]
        exact harea
    omega
  · rintro h E buf g u x ⟨hpos, t₁, hk, hgets⟩ ⟨hnone, hblk, harea⟩
    have hsz : bio.size < 2 ^ 31 := by
      dsimp only at hpos
      unfold s32 at hpos
      omega
    have hc := hshort hsz
    obtain ⟨-, rfl⟩ : true = E.kmalloc t.tick ∧ t₁ = { t with tick := t.tick + 1 } := by
      unfold kmalloc at hk
      rw [run_get_bind, run_set_bind] at hk
      exact run_pure_iff.1 hk
    have hmaps := h hgets.1 hsz
    -- the block was not mapped when the worker started either
    have hnone' : t.swapFindSwapInfo g.bStart = none := hgets.grows.find_none hold hnone
    obtain ⟨-, gs, gs', hv, -⟩ := hgets
    have hg : g ∈ visited bio.sector bio.sectors := by
      rw [← hcount hsz]
      exact hv ▸ List.mem_append_right _ List.mem_cons_self
    obtain ⟨i, hi, rfl⟩ := (mem_visited (by omega)).1 hg
    have hlast := lt_blockCount hi
    obtain ⟨hs1, hs2, hs3, -⟩ := segStart_bounds hi
    obtain ⟨hx1, hx2⟩ : (if i = 0 then bio.sector else 128 * (bio.sector / 128 + i) % 2 ^ 32) ≤ x ∧
      x < (if i = 0 then bio.sector else 128 * (bio.sector / 128 + i) % 2 ^ 32) +
        min (bio.sector + bio.sectors - segStart bio.sector i)
          (128 * (bio.sector / 128 + i + 1) - segStart bio.sector i) :=
      harea
    by_contra hge
    by_cases hown : i = 0 ∨ 128 * (bio.sector / 128 + i) < 2 ^ 32
    · have hstart : (if i = 0 then bio.sector else 128 * (bio.sector / 128 + i) % 2 ^ 32) =
          segStart bio.sector i := by
        unfold segStart
        split <;> omega
      rw [hstart] at hx1 hx2
      have hidx : x / 128 = bio.sector / 128 + i := by omega
      have hsome := hmaps x (by omega) (by omega) (by omega) (by omega)
        (fun heq => hblk (s32_neg_one.2 (hidx ▸ heq)).symm)
      rw [hidx] at hsome
      exact absurd hnone' (Option.isSome_iff_ne_none.1 hsome)
    · -- the block start has wrapped, to a sector below the first one
      rw [if_neg (by omega)] at hx1 hx2
      omega

/-- A disk of 1000 user sectors, none of which can be written, with a mapping for sector 990. -/
def mappedWorld : SwapM Unit := do
  let E := Env.refusing fun c _ => c.lba < 1000
  let _ ← scsiSwapInit E 1000
  let _ ← Request.serve E ⟨true, 990, 1, noBadSec, fun _ _ => 7⟩

/-- Two bios that start at that sector; the second one goes on to the next block. -/
theorem mappedWorld_diverts {n : ℕ} (hn : n = 5120 ∨ n = 32768) :
    ∃ s s', mappedWorld.run World.blank = some ((), s) ∧
      (genericMakeRequest (Env.refusing fun c _ => c.lba < 1000) (.disk 1000) ⟨true, 990, n, true⟩).run s =
        some (.diverted ⟨990, n, noBadSec⟩, s') ∧
      s'.core.sectorReserveStart = 1000 ∧ s.core.sectorReserveStart = 1000 ∧ s'.core.deviceDead = 0 ∧
      (∀ p ∈ s'.core.infoList, p < s'.brk) ∧ s'.HasData ∧ s'.swapFindSwapInfo 1024 = none := by
  have hrun : ((do
      mappedWorld
      let s ← get
      let route ← genericMakeRequest (Env.refusing fun c _ => c.lba < 1000) (.disk 1000) ⟨true, 990, n, true⟩
      let s' ← get
      return ((match route with | .diverted i => some i | _ => none),
        decide (s'.core.sectorReserveStart = 1000 ∧ s.core.sectorReserveStart = 1000 ∧ s'.core.deviceDead = 0 ∧
        (∀ p ∈ s'.core.infoList, p < s'.brk) ∧ s'.HasData ∧ s'.swapFindSwapInfo 1024 = none)) :
        SwapM (Option SwapBioItem × Bool)).run World.blank).map Prod.fst =
      some (some ⟨990, n, noBadSec⟩, true) := by
    rcases hn with rfl | rfl <;> decide +kernel
  obtain ⟨s₂, h⟩ := run_of_result hrun
  obtain ⟨⟨⟩, s, h1, h⟩ := run_bind_iff.1 h
  rw [run_get_bind] at h
  obtain ⟨route, s', h2, h⟩ := run_bind_iff.1 h
  rw [run_get_bind] at h
  obtain ⟨hres, -⟩ := run_pure_iff.1 h
  obtain ⟨hroute, hfacts⟩ := Prod.mk.inj hres
  cases route with
  | diverted i =>
    obtain rfl := Option.some.inj hroute
    exact ⟨s, s', h1, h2, of_decide_eq_true hfacts.symm⟩
  | ended e => exact absurd hroute (by simp)
  | queued q => exact absurd hroute (by simp)

/-- Ten sectors, up to the last user sector. -/
theorem direct_below_reserve_last :
    ∃ s s', mappedWorld.run World.blank = some ((), s) ∧
      (genericMakeRequest (Env.refusing fun c _ => c.lba < 1000) (.disk 1000) ⟨true, 990, 5120, true⟩).run s =
        some (.diverted ⟨990, 5120, noBadSec⟩, s') ∧
      ∀ E buf g u x, SwapBioItem.Gets E ⟨990, 5120, noBadSec⟩ ⟨true, 990, 5120, true⟩ buf s' g u →
        Direct (-1) u g x → x < s'.core.sectorReserveStart := by
  obtain ⟨s, s', h1, h2, hres, hres', -, hold, hdata, -⟩ := mappedWorld_diverts (Or.inl rfl)
  refine ⟨s, s', h1, h2, (direct_below_reserve_iff (by decide) h2 (hres.trans hres'.symm) hold hdata).2 ?_⟩
  intro _ _ x h3 h4 h5
  rw [hres] at h5
  have : x < 990 + 10 := h4
  omega

/-- **The disk is written in the reserve.** 64 sectors from sector 990 on: the first block is mapped, so
the bio is diverted, and no one has looked at its end; the second block is not mapped, and the worker
writes sector 1024 on the disk. -/
theorem direct_in_reserve :
    ∃ s s', mappedWorld.run World.blank = some ((), s) ∧
      (genericMakeRequest (Env.refusing fun c _ => c.lba < 1000) (.disk 1000) ⟨true, 990, 32768, true⟩).run s =
        some (.diverted ⟨990, 32768, noBadSec⟩, s') ∧ s'.core.sectorReserveStart = 1000 ∧
      ∃ E buf g u, SwapBioItem.Gets E ⟨990, 32768, noBadSec⟩ ⟨true, 990, 32768, true⟩ buf s' g u ∧
        Direct (-1) u g 1024 := by
  obtain ⟨s, s', h1, h2, hres, -, hdead, -, hdata, hnone⟩ := mappedWorld_diverts (Or.inr rfl)
  obtain ⟨gs', hv⟩ := visited_split (by decide : 64 + 128 ≤ 2 ^ 31) (by decide : 1 < blockCount 990 64)
  let o := (⟨990, 32768, noBadSec⟩ : SwapBioItem).request ⟨true, 990, 32768, true⟩ fun _ => zeroSector
  obtain ⟨u, hgets, hkept⟩ := Request.gets_faultless (o := o)
    (s := { s' with tick := s'.tick + 1 }) faultless hdead hdata hv
    (by decide)
  refine ⟨s, s', h1, h2, hres, _, _, _, u, ⟨by decide, _, rfl, hgets⟩, ?_, by decide, by decide, by decide⟩
  rw [hkept.find]
  exact hnone

/-! ## Partitions

The hook looks at `bi_sector` before `blk_partition_remap` has added the start of the partition. -/

/-- The sectors of the command that a round for `g` sends for sectors in place. -/
def Seg.inPlace (isWrite : Bool) (g : Seg) : List ℕ :=
  let cdb := hdCdb (if isWrite then opWrite10 else opRead10) g.sStart g.sCount
  List.range' (cdbLba cdb) (cdbCount cdb)

/-- The sectors that a round for `g` reads or writes in a mapping of the block at `src`. -/
def Seg.inMapping (src : ℕ) (g : Seg) : List ℕ := List.range' (src + dataOffset g.sStart src) g.sCount

/-- The rounds of the worker for a diverted bio. -/
def SwapBioItem.rounds (item : SwapBioItem) (bio : Bio) (buf : ℕ → Sector) : List Seg :=
  visited (item.request bio buf).start (item.request bio buf).count

/-- The sectors that a bio has on the disk as a whole. -/
def Bio.absolute (b : Bdev) (bio : Bio) : List ℕ := List.range' (blkPartitionRemap b bio).sector bio.sectors

/-- The hook looks up the blocks of the sectors that the bio has on the disk as a whole, and the worker that
it diverts the bio to reads or writes these sectors, in order: in place, in the mapping it finds for a
block, or in the one it makes for it. -/
structure HookAgrees (b : Bdev) (bio : Bio) : Prop where
  lookup : examined bio.sector bio.sectors = examined (blkPartitionRemap b bio).sector bio.sectors
  divert : ∀ E s item s' buf, (genericMakeRequest E b bio).run s = some (.diverted item, s') →
    (item.rounds bio buf).flatMap (Seg.inPlace bio.isWrite) = bio.absolute b ∧
      (item.rounds bio buf).flatMap (fun g => g.inMapping g.bStart) = bio.absolute b ∧
      (item.rounds bio buf).flatMap (fun g => g.inMapping (swapSectorAlign g.sStart)) = bio.absolute b

theorem Seg.InBlock.inPlace_eq {w : Bool} (h : g.InBlock) :
    g.inPlace w = List.range' (g.sStart % 2 ^ 32) g.sCount := by
  unfold Seg.InBlock at h
  have hcount : g.sCount % 2 ^ 16 = g.sCount := Nat.mod_eq_of_lt (by omega)
  unfold Seg.inPlace
  dsimp only
  rw [cdbLba_hdCdb, cdbCount_hdCdb, hcount]

theorem dataOffset_align (a : ℕ) : dataOffset a (swapSectorAlign a) = a % 128 := by
  rw [dataOffset_eq_bytes, dataOffsetBytes_read]
  simp only [sectorSize]
  omega

theorem Seg.inMapping_align (g : Seg) :
    g.inMapping (swapSectorAlign g.sStart) = List.range' g.sStart g.sCount := by
  unfold Seg.inMapping
  rw [dataOffset_align]
  congr 1
  unfold swapSectorAlign swapBlockIndex
  omega

/-- Below sector 2^32, every round knows its sectors. -/
theorem visited_exact {start count : ℕ} (hpos : 0 < count) (h : start + count ≤ 2 ^ 32)
    (hc : count + 128 ≤ 2 ^ 31) (hg : g ∈ visited start count) :
    g.InBlock ∧ g.sStart = start + g.off ∧ g.sStart < 2 ^ 32 ∧ g.bStart = swapSectorAlign g.sStart := by
  obtain ⟨i, hi, rfl⟩ := (mem_visited hc).1 hg
  obtain ⟨h1, h2, h3, -⟩ := segStart_bounds hi
  have hlt := segStart_lt hpos hi
  refine ⟨segment32_inBlock hi, ?_⟩
  rw [segment32_eq h hi]
  refine ⟨(Nat.add_sub_cancel' h3).symm, show segStart start i < _ by omega, ?_⟩
  show 128 * (start / 128 + i) = segStart start i / 128 * 128
  omega

/-- The rounds of an empty request have no sectors. -/
theorem visited_zero {start : ℕ} (hg : g ∈ visited start 0) : g.InBlock ∧ g.sCount = 0 := by
  obtain ⟨i, hi, rfl⟩ := (mem_visited (by omega)).1 hg
  obtain ⟨-, -, h3, -⟩ := segStart_bounds hi
  refine ⟨segment32_inBlock hi, ?_⟩
  show min (start + 0 - segStart start i) _ = 0
  omega

/-- Where the sectors of `g` are, whichever way the worker takes. -/
theorem visited_ranges {start count : ℕ} (w : Bool) (h : count = 0 ∨ start + count ≤ 2 ^ 32)
    (hc : count + 128 ≤ 2 ^ 31) (hg : g ∈ visited start count) :
    g.inPlace w = List.range' (start + g.off) g.sCount ∧
      g.inMapping g.bStart = List.range' (start + g.off) g.sCount ∧
      g.inMapping (swapSectorAlign g.sStart) = List.range' (start + g.off) g.sCount := by
  by_cases hpos : count = 0
  · subst hpos
    obtain ⟨hin, h0⟩ := visited_zero hg
    unfold Seg.inMapping
    rw [hin.inPlace_eq, h0]
    simp only [List.range'_zero, and_self]
  · obtain ⟨hin, hstart, hlt, hb⟩ := visited_exact (by omega) (by omega) hc hg
    rw [hin.inPlace_eq, hb, g.inMapping_align, Nat.mod_eq_of_lt hlt, hstart]
    exact ⟨rfl, rfl, rfl⟩

/-- So the rounds go through the sectors of the request. -/
theorem visited_sectors {start count : ℕ} (w : Bool) (h : count = 0 ∨ start + count ≤ 2 ^ 32)
    (hc : count + 128 ≤ 2 ^ 31) :
    (visited start count).flatMap (Seg.inPlace w) = List.range' start count ∧
      (visited start count).flatMap (fun g => g.inMapping g.bStart) = List.range' start count ∧
      (visited start count).flatMap (fun g => g.inMapping (swapSectorAlign g.sStart)) =
        List.range' start count := by
  have htile : (visited start count).flatMap (fun g => List.range' (start + 1 * g.off) (1 * g.sCount)) =
      List.range' start (1 * count) := visited_tile start 1 hc
  simp only [Nat.one_mul] at htile
  rw [← htile]
  exact ⟨List.flatMap_congr fun g hg => (visited_ranges w h hc hg).1,
    List.flatMap_congr fun g hg => (visited_ranges w h hc hg).2.1,
    List.flatMap_congr fun g hg => (visited_ranges w h hc hg).2.2⟩

/-- The commands of a request are for its sectors only if these have 32-bit numbers. -/
theorem inPlace_sectors {start count a : ℕ} {w : Bool} (hpos : 0 < count) (hc : count + 128 ≤ 2 ^ 31)
    (h : (visited start count).flatMap (Seg.inPlace w) = List.range' a count) :
    a = start % 2 ^ 32 ∧ a + count ≤ 2 ^ 32 := by
  constructor
  · -- the first sector of the first round
    have h0 : 0 < blockCount start count := by unfold blockCount; omega
    obtain ⟨gs', hv⟩ := visited_split hc h0
    have hin := (segment32_inBlock h0).inPlace_eq (w := w)
    have hs : (segment32 start count 0).sStart = start := rfl
    have hn : (segment32 start count 0).sCount =
        min (start + count - start) (128 * (start / 128 + 0 + 1) - start) := rfl
    obtain ⟨m, hm⟩ : ∃ m, (segment32 start count 0).sCount = m + 1 :=
      ⟨_, (Nat.succ_pred (by omega : (segment32 start count 0).sCount ≠ 0)).symm⟩
    obtain ⟨n, rfl⟩ : ∃ n, count = n + 1 := ⟨_, (Nat.succ_pred hpos.ne').symm⟩
    rw [hv, List.range_zero, List.map_nil, List.nil_append, List.flatMap_cons, hin, hs, hm, List.range'_succ,
      List.range'_succ, List.cons_append] at h
    exact (List.cons.inj h).1.symm
  · -- the last sector is in some round, and a round ends at or below 2^32
    have hlast : a + (count - 1) ∈ List.range' a count := List.mem_range'_1.2 ⟨by omega, by omega⟩
    rw [← h] at hlast
    obtain ⟨g, hg, hx⟩ := List.mem_flatMap.1 hlast
    obtain ⟨i, hi, rfl⟩ := (mem_visited hc).1 hg
    have hin := segment32_inBlock hi
    rw [hin.inPlace_eq, List.mem_range'_1] at hx
    unfold Seg.InBlock at hin
    omega

/-- A core with a mapping for the block of `sector`. -/
def mapping (sector : ℕ) : World :=
  { World.blank with
    core := { World.blank.core with infoList := [0], sectorReserveStart := sector + 1 }
    heap := fun _ => ⟨{ SwapTable.zero with srcSec := .ofNat 64 (swapSectorAlign sector) },
      some fun _ => zeroSector⟩ }

theorem mapping_swapped {sector count : ℕ} (hpos : 0 < count) (hc : count < 2 ^ 31)
    (h64 : sector + count < 2 ^ 64) : (mapping sector).didBlockSwapped sector count = true := by
  have hle := swapSectorAlign_le sector
  have hend : u64 ((sector : ℤ) + s32 count) = sector + count := by
    rw [s32_ofNat hc, ← Nat.cast_add]
    exact u64_ofNat h64
  have hfind : (mapping sector).swapFindSwapInfo (swapSectorAlign sector) = some 0 := by
    refine List.find?_cons_of_pos ?_
    show decide ((BitVec.ofNat 64 (swapSectorAlign sector)).toNat = _) = true
    rw [BitVec.toNat_ofNat, Nat.mod_eq_of_lt (by omega)]
    exact decide_eq_true rfl
  unfold World.didBlockSwapped World.didBlockSwappedFrom
  rw [hend, if_pos (by omega), hfind]
  rfl

theorem Bio.sectors_lt {bio : Bio} (h : bio.size < 2 ^ 32) : bio.sectors < 2 ^ 23 := by
  unfold Bio.sectors
  rw [Nat.shiftRight_eq_div_pow]
  omega

/-- With the block of `bi_sector` mapped, a bio is diverted to `bi_sector`. -/
theorem mapping_diverts {b : Bdev} {bio : Bio} (hb : bioGetScsiSwap b = true) (hpos : 0 < bio.sectors)
    (hsize : bio.size < 2 ^ 32) (h64 : bio.sector + bio.sectors < 2 ^ 64) :
    (genericMakeRequest (Env.refusing fun _ _ => false) b bio).run (mapping bio.sector) =
      some (.diverted ⟨bio.sector, s32 bio.size, noBadSec⟩, { mapping bio.sector with tick := 1 }) := by
  have hc : bio.sectors < 2 ^ 31 := (Bio.sectors_lt hsize).trans (by decide)
  have hhas : (mapping bio.sector).bioHasBadBlock b bio = true := by
    unfold World.bioHasBadBlock
    rw [hb, mapping_swapped hpos hc h64]
    rfl
  have hcan : (mapping bio.sector).scsiSwapCoreCanSwap bio.sector (s32 bio.size) = true :=
    decide_eq_true ⟨rfl, Nat.lt_succ_self _⟩
  have hqueue : (swapBio (Env.refusing fun _ _ => false) b bio bio.sector (s32 bio.size) noBadSec (-eio)).run
      (mapping bio.sector) = some (some ⟨bio.sector, s32 bio.size, noBadSec⟩,
        { mapping bio.sector with tick := 1 }) := by
    unfold swapBio
    rw [if_neg (by simp), if_neg (by simp), if_neg (by simp [hb]), run_get_bind, if_neg (by simp [hcan])]
    rfl
  unfold genericMakeRequest
  rw [run_get_bind, if_pos hhas, run_bind_of hqueue]
  rfl

theorem blkPartitionRemap_sector {b : Bdev} {bio : Bio} (hpos : bio.sectors ≠ 0) :
    (blkPartitionRemap b bio).sector = bio.sector + b.startSect := by
  unfold blkPartitionRemap
  rw [if_pos hpos]

/-- The rounds for the bio, if its size is an `int`; otherwise there are none. -/
theorem rounds_eq {bio : Bio} {n : ℕ} (hsize : bio.size < 2 ^ 32) :
    SwapBioItem.rounds ⟨bio.sector, s32 bio.size, n⟩ bio buf =
      visited bio.sector (if bio.size < 2 ^ 31 then bio.sectors else 0) := by
  show visited bio.sector ((s32 bio.size).toNat >>> 9) = _
  congr 1
  split
  · rename_i h
    rw [s32_ofNat h]
    rfl
  · have hneg : (s32 bio.size).toNat = 0 := by unfold s32; omega
    rw [hneg, Nat.zero_shiftRight]

/-- **Submission and completion name the same sectors exactly on a partition that starts at sector 0, for a
bio of less than 2^31 bytes that ends at or below sector 2^32**, an empty bio apart. -/
theorem hook_agrees_iff {b : Bdev} {bio : Bio} (hb : bioGetScsiSwap b = true) (hsize : bio.size < 2 ^ 32)
    (h64 : bio.sector + b.startSect + bio.sectors < 2 ^ 64) :
    HookAgrees b bio ↔
      bio.sectors = 0 ∨ b.startSect = 0 ∧ bio.size < 2 ^ 31 ∧ bio.sector + bio.sectors ≤ 2 ^ 32 := by
  have hc : bio.sectors + 128 ≤ 2 ^ 31 := by
    have hlt := Bio.sectors_lt hsize
    omega
  constructor
  · intro h
    rw [or_iff_not_imp_left]
    intro hpos
    -- with the block of `bi_sector` mapped, the bio is diverted
    have hdiv := mapping_diverts hb (Nat.pos_of_ne_zero hpos) hsize
      (show bio.sector + bio.sectors < 2 ^ 64 by omega)
    obtain ⟨hplace, -, -⟩ := h.divert _ _ _ _ (fun _ => zeroSector) hdiv
    unfold Bio.absolute at hplace
    rw [rounds_eq hsize, blkPartitionRemap_sector hpos] at hplace
    have hint : bio.size < 2 ^ 31 := by
      by_contra hge
      rw [if_neg hge, (visited_sectors bio.isWrite (Or.inl rfl) (by omega)).1, List.range'_zero] at hplace
      exact hpos (List.range'_eq_nil_iff.1 hplace.symm)
    rw [if_pos hint] at hplace
    obtain ⟨hfirst, hlast⟩ := inPlace_sectors (Nat.pos_of_ne_zero hpos) hc hplace
    omega
  · intro h
    have hsame : (blkPartitionRemap b bio).sector = bio.sector := by
      by_cases hempty : bio.sectors = 0
      · unfold blkPartitionRemap
        rw [if_neg (not_not.2 hempty)]
      · obtain ⟨hstart, -, -⟩ := h.resolve_left hempty
        rw [blkPartitionRemap_sector hempty, hstart, Nat.add_zero]
    refine ⟨by rw [hsame], fun E s item s' buf hd => ?_⟩
    obtain ⟨rfl, -⟩ := genericMakeRequest_diverted hd
    have hcount : (if bio.size < 2 ^ 31 then bio.sectors else 0) = bio.sectors := by
      split <;> omega
    unfold Bio.absolute
    rw [rounds_eq hsize, hcount, hsame]
    exact visited_sectors bio.isWrite (h.imp_right fun h => h.2.2) hc

/-- The whole disk. -/
theorem hook_agrees_disk : HookAgrees (.disk 1000) ⟨true, 990, 5120, true⟩ :=
  (hook_agrees_iff rfl (by decide) (by decide)).2 (Or.inr ⟨rfl, by decide, by decide⟩)

/-- **A partition that starts at sector 100.** Its sector 890 is sector 990 of the disk, whose block is
mapped, but the block at 768 is looked up for it. Its sector 896 is sector 996 of the disk, but is
diverted to sector 896. -/
theorem hook_ignores_partition :
    let b : Bdev := ⟨true, false, false, true, 100, 900, 1000⟩
    (examined 890 1 = [768] ∧ examined (blkPartitionRemap b ⟨true, 890, 512, true⟩).sector 1 = [896]) ∧
    ∃ s s', mappedWorld.run World.blank = some ((), s) ∧
      (genericMakeRequest (Env.refusing fun c _ => c.lba < 1000) b ⟨true, 896, 512, true⟩).run s =
        some (.diverted ⟨896, 512, noBadSec⟩, s') ∧
          (blkPartitionRemap b ⟨true, 896, 512, true⟩).sector = 996 := by
  intro b
  refine ⟨by decide +kernel, ?_⟩
  have hrun : ((do
      mappedWorld
      let route ← genericMakeRequest (Env.refusing fun c _ => c.lba < 1000) b ⟨true, 896, 512, true⟩
      return match route with | .diverted i => some i | _ => none : SwapM (Option SwapBioItem)).run
        World.blank).map Prod.fst = some (some ⟨896, 512, noBadSec⟩) := by decide +kernel
  obtain ⟨s₂, h⟩ := run_of_result hrun
  obtain ⟨⟨⟩, s, h1, h⟩ := run_bind_iff.1 h
  obtain ⟨route, s', h2, h⟩ := run_bind_iff.1 h
  obtain ⟨hroute, -⟩ := run_pure_iff.1 h
  cases route with
  | diverted i =>
    obtain rfl := Option.some.inj hroute
    exact ⟨s, s', h1, h2, by decide⟩
  | ended e => exact absurd hroute (by simp)
  | queued q => exact absurd hroute (by simp)

end ScsiSwap
