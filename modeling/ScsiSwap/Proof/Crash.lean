import ScsiSwap.Proof.Image
import ScsiSwap.Proof.InStep

/-!
# Power cuts

A run from a start on, on a device that takes all head and table writes, and a disk that may lose its power
after any sector (`CutDisk`).

* `initHeadLoop_took`, `scsiSwapInit_inStep`: a start on a sound disk (`SoundDisk`) leaves the driver in step
  with it;
* `serve_inStep`: a request that moves no mapping keeps it so;
* `power_cut_safe`: then the next start loads no mapping for a free block, wherever the power went;
* `power_cut_unsafe`: a move writes the table before it marks the block.
-/

namespace ScsiSwap

open StateOption

variable {E : Env} {s s' : World} {R j : ℕ} {K K' : ℕ → Prop}

/-! ## A start -/

/-- The heads can be read. -/
def Env.ReadsHeads (E : Env) (R : ℕ) : Prop := ∀ t x, Region R .head x → E.read t ⟨x, 1, 5⟩ = .ok

theorem region_head {k : ℕ} (hR : R + maxReservedSector ≤ 2 ^ 32) (hk : k < 128 * 128) :
    Region R .head ((R + swapHeadOffest + k) % 2 ^ 32) := by
  unfold Region
  simp only [maxReservedSector, swapHeadOffest, swapTableOffset, sector8M] at *
  omega

theorem Env.TakesRecords.writable (hE : E.TakesRecords R) (hR : R + maxReservedSector ≤ 2 ^ 32)
    {i : ℕ} (hi : i < 128) :
    E.Writable (R + swapHeadOffest) i :=
  fun _ _ _ hk => hE _ _ _ (Or.inl (region_head hR (by omega)))

/-- The head of memory is the one in block `j`, and it is what a start would take from `disk`. -/
structure World.Took (R j : ℕ) (disk : ℕ → Sector) (s : World) : Prop where
  lt : j < 128
  sector : s.core.sectorHead = R + swapHeadOffest + 128 * j
  named : s.view.head.Named
  before : ∀ i < j, (headAt s.disk (R + swapHeadOffest) (128 * i)).state = .invalid
  state : (headAt s.disk (R + swapHeadOffest) (128 * j)).state = .ok
  bitmap : (headAt s.disk (R + swapHeadOffest) (128 * j)).bitmap = s.core.head.bitmap
  chosen : s.core.head.bitmap = chosenBitmap R disk

/-- A new head. -/
theorem swapCreateNewHead_took {disk : ℕ → Sector} (hE : E.TakesRecords R) (hR : R + maxReservedSector ≤ 2 ^ 32)
    (hs : s.core.sectorHead = R + swapHeadOffest) (hd : chosenBitmap R disk = 0)
    (h : (swapCreateNewHead E).run s = some (true, s')) : s'.Took R 0 disk := by
  unfold swapCreateNewHead at h
  rw [run_modify_bind] at h
  have hbits : s'.core.head.bitmap = 0 := createHeadLoop_sameBits _ _ _ _ h
  unfold createHeadLoop at h
  rw [run_get_bind] at h
  obtain ⟨r, s₁, h1, h2⟩ := run_bind_iff.1 h
  rw [show (s.setHead SwapHead.zero).core.sectorHead = R + swapHeadOffest + 128 * 0 from hs] at h1
  obtain ⟨-, hg1, hnone⟩ := swapCheckBlockBySector_writes (i := 0) le_rfl h1 rfl
  obtain rfl := hnone (hE.writable hR (by decide))
  dsimp only at h2
  rw [run_modify_bind] at h2
  unfold swapCreateNewHead' at h2
  rw [run_modify_bind] at h2
  set s₂ : World := (s₁.setHead { s₁.core.head with status := strncpy s₁.core.head.status strValid 5 }) with hs2
  set s₃ : World := s₂.setHead { s₂.core.head with
    headString := strncpy s₂.core.head.headString swapHeadString 16
    version := strncpy s₂.core.head.version swapVersion 4 } with hs3
  have hsec : s₃.core.sectorHead = R + swapHeadOffest := (congrArg Geom.head hg1).trans hs
  have hn : s₃.core.head.Named := ⟨hasPrefix_strncpy _ _ (by decide), hasPrefix_strncpy _ _ (by decide)⟩
  obtain ⟨t₁, t₂, ok, ok', g1, g2, hrun, hsec', hhead⟩ := flushSwapHead_run E s₃
  obtain ⟨-, rfl⟩ := run_det hrun h2
  rw [hsec] at g1 g2 hsec'
  obtain ⟨-, -, hd1, -⟩ := writeRecord hE (Or.inl (region_head (k := 0) hR (by decide))) g1
  obtain ⟨-, -, hd2, -⟩ := writeRecord hE (Or.inl (region_head (k := 64) hR (by decide))) g2
  have hat : headAt s'.disk (R + swapHeadOffest) (128 * 0) = s₃.core.head.seal := by
    refine headAt_of_eq ?_
    rw [hd2, Function.update_of_ne fun he => absurd (addr_inj (by decide) (by decide) he) (by decide), hd1]
    exact Function.update_self ..
  refine ⟨by decide, hsec', ?_, fun i hi => absurd hi (Nat.not_lt_zero i), ?_, ?_, hbits.trans hd.symm⟩
  · show s'.core.head.unsealed.Named
    rw [hhead]
    exact ⟨hn.head, hn.status⟩
  · rw [hat]
    exact hn.seal_ok
  · rw [hat, hhead]

/-- **The search for a head** ends with the one that a start would choose, on the disk and in memory. -/
theorem initHeadLoop_took (hE : E.TakesRecords R) (hr : E.ReadsHeads R) (hR : R + maxReservedSector ≤ 2 ^ 32) :
    ∀ {n i : ℕ} {s s' : World}, (initHeadLoop E n (R + swapHeadOffest + 128 * i)).run s = some (true, s') →
    (∀ k < i, (headAt s.disk (R + swapHeadOffest) (128 * k)).state = .invalid) →
    (∃ k < 128, i ≤ k ∧ (headAt s.disk (R + swapHeadOffest) (128 * k)).state ≠ .invalid) →
    s.core.sectorHead = R + swapHeadOffest → ∃ j, s'.Took R j s.disk := by
  intro n
  induction n with
  | zero =>
    intro i s s' h _ _ _
    obtain ⟨u, s₁, -, h2⟩ := run_bind_iff.1 h
    exact absurd (run_pure_iff.1 h2).1 (by simp)
  | succ n ih =>
    intro i s s' h hbefore hex hsec
    have hi : i < 128 := by
      obtain ⟨k, hk, hik, -⟩ := hex
      omega
    have hbound : swapHeadOffest + 128 * 128 ≤ maxReservedSector := by decide
    unfold initHeadLoop at h
    rw [run_get_bind] at h
    obtain ⟨⟨st, head⟩, s₁, h1, h2⟩ := run_bind_iff.1 h
    have hq1 := swapGetHeadState_quiet _ _ _ _ _ h1
    have hsec1 : s₁.core.sectorHead = R + swapHeadOffest :=
      (congrArg Geom.head (swapGetHeadState_dev h1).1.geom).trans hsec
    have hst : st = (headAt s.disk (R + swapHeadOffest) (128 * i)).state :=
      swapGetHeadState_ok h1 fun t => hr t _ (region_head hR (by omega))
    dsimp only at h2
    rw [run_modify_bind] at h2
    split at h2
    · rename_i hinv
      obtain ⟨k, hk, hik, hks⟩ := hex
      have hne : i ≠ k := by
        rintro rfl
        exact hks (hst.symm.trans hinv)
      rw [show R + swapHeadOffest + 128 * i + 128 = R + swapHeadOffest + 128 * (i + 1) by omega] at h2
      have hd : (s₁.setHead head).disk = s.disk := hq1.2
      have hrest := ih h2 (by
        rw [hd]
        intro m hm
        rcases Nat.lt_succ_iff_lt_or_eq.1 hm with hm | rfl
        · exact hbefore m hm
        · exact hst.symm.trans hinv) (by rw [hd]; exact ⟨k, hk, by omega, hks⟩) hsec1
      rw [hd] at hrest
      exact hrest
    rename_i hinv
    rw [hst] at hinv
    have hchosen := chosenBitmap_eq (j := i) (by simp only [maxSwapHeadBlockNum]; omega) hbefore hinv
    obtain ⟨⟨stBack, headBack⟩, s₂, h3, h4⟩ := run_bind_iff.1 h2
    have hq2 : Quiet s s₂ := Quiet.trans _ _ _ (by exact hq1) (swapGetHeadState_quiet _ _ _ _ _ h3)
    have hv2 := (swapGetHeadState_dev h3).1.view
    have hsec2 : s₂.core.sectorHead = R + swapHeadOffest :=
      (congrArg (fun v : View => v.geom.head) hv2).trans hsec1
    have hstb : stBack = (headAt s.disk (R + swapHeadOffest) (128 * i + 64)).state := by
      have := swapGetHeadState_ok h3 fun t => hr t _ (region_head (k := 128 * i + 64) hR (by omega))
      rw [this]
      unfold headAt
      rw [show (s₁.setHead head).disk = s.disk from hq1.2]
      rfl
    dsimp only at h4
    split at h4
    · rename_i hfail
      exact absurd (hst.symm.trans hfail.1) (SwapHead.state_ne_fail _)
    -- one sector of the block is written, if any
    have frame : ∀ {d : ℕ → Sector} {b : Sector} {o k : ℕ}, d =
        Function.update s.disk ((R + swapHeadOffest + o) % 2 ^ 32) b →
        128 * k < maxReservedSector → o < maxReservedSector → 128 * k ≠ o →
        headAt d (R + swapHeadOffest) (128 * k) = headAt s.disk (R + swapHeadOffest) (128 * k) := by
      rintro d b o k rfl hk ho hne
      unfold headAt
      rw [Function.update_of_ne fun he => hne (addr_inj hk ho he)]
    split at h4
    · -- the master
      rename_i hok
      subst hok
      obtain ⟨hhead, hstate⟩ := swapGetHeadState_found h1
      have hhead' : head = headAt s.disk (R + swapHeadOffest) (128 * i) := hhead
      obtain ⟨u, s₃, h5, h6⟩ := run_bind_iff.1 h4
      rw [run_modify_bind] at h6
      obtain ⟨-, rfl⟩ := run_pure_iff.1 h6
      have hv3 : s₃.view.head = s₂.view.head ∧ ∀ k ≤ i, headAt s₃.disk (R + swapHeadOffest) (128 * k) =
          headAt s.disk (R + swapHeadOffest) (128 * k) := by
        unfold repairBackup at h5
        split at h5
        · obtain ⟨a, s₄, h7, h8⟩ := run_bind_iff.1 h5
          obtain ⟨-, rfl⟩ := run_pure_iff.1 h8
          have hd := (hdWriteSector_one h7).2
          rw [hq2.2, Nat.add_assoc (R + swapHeadOffest)] at hd
          exact ⟨by rw [(hdWriteSector_dev h7).view], fun k hk => frame hd (by omega)
            (by simp only [swapHeadBackupOffest]; omega) (by simp only [swapHeadBackupOffest]; omega)⟩
        · obtain ⟨-, rfl⟩ := run_pure_iff.1 h5
          exact ⟨rfl, fun k _ => by rw [hq2.2]⟩
      have hmem : s₃.view.head = head.unsealed := hv3.1.trans (by rw [hv2]; rfl)
      have hbm : s₃.view.bitmap = head.bitmap := by
        unfold View.bitmap
        rw [hmem]
        rfl
      refine ⟨i, hi, rfl, ?_, fun k hk => ?_, ?_, ?_, ?_⟩
      · have hnamed := SwapHead.named_of_ok hstate
        show s₃.view.head.Named
        rw [hmem]
        exact ⟨hnamed.head, hnamed.status⟩
      · rw [hv3.2 k hk.le]
        exact hbefore k hk
      · rw [hv3.2 i le_rfl, ← hhead', hstate]
      · rw [hv3.2 i le_rfl, ← hhead']
        exact hbm.symm
      · rw [hchosen, show found (fun _ => false) s.disk (R + swapHeadOffest) i = some head by
          rw [hhead']; exact if_pos ((headStateAt_good rfl).trans hst.symm)]
        exact hbm
    rename_i hnok
    have hnok' : headStateAt (fun _ => false) s.disk (R + swapHeadOffest) (128 * i) ≠ .ok := by
      rw [headStateAt_good rfl, ← hst]
      exact hnok
    split at h4
    · -- the backup
      rename_i hok
      subst hok
      obtain ⟨hhead, hstate⟩ := swapGetHeadState_found h3
      have hhead' : headBack = headAt s.disk (R + swapHeadOffest) (128 * i + 64) := by
        rw [hhead]
        unfold headAt
        rw [show (s₁.setHead head).disk = s.disk from hq1.2]
        rfl
      rw [run_modify_bind] at h4
      obtain ⟨ok, s₃, h5, h6⟩ := run_bind_iff.1 h4
      rw [run_modify_bind] at h6
      obtain ⟨-, rfl⟩ := run_pure_iff.1 h6
      obtain ⟨-, hv3, hd3, -⟩ := writeRecord hE (Or.inl (region_head hR (by omega))) h5
      rw [show (s₂.setHead headBack).disk = s.disk from hq2.2] at hd3
      have hmem : s₃.view.head = headBack.unsealed := by rw [hv3]; rfl
      have hbm : s₃.view.bitmap = headBack.bitmap := by
        unfold View.bitmap
        rw [hmem]
        rfl
      have hat : headAt s₃.disk (R + swapHeadOffest) (128 * i) = headBack :=
        headAt_of_eq (by rw [hd3]; exact Function.update_self ..)
      refine ⟨i, hi, rfl, ?_, fun k hk => ?_, ?_, ?_, ?_⟩
      · have hnamed := SwapHead.named_of_ok hstate
        show s₃.view.head.Named
        rw [hmem]
        exact ⟨hnamed.head, hnamed.status⟩
      · show (headAt s₃.disk _ _).state = _
        rw [frame hd3 (by omega) (by omega) (by omega)]
        exact hbefore k hk
      · show (headAt s₃.disk _ _).state = _
        rw [hat, hstate]
      · show (headAt s₃.disk _ _).bitmap = _
        rw [hat]
        exact hbm.symm
      · rw [hchosen, show found (fun _ => false) s.disk (R + swapHeadOffest) i = some headBack by
          unfold found
          rw [if_neg hnok', if_pos ((headStateAt_good rfl).trans hstb.symm), hhead']]
        exact hbm
    -- neither
    rename_i hnok2
    have hnone : found (fun _ => false) s.disk (R + swapHeadOffest) i = none := by
      unfold found
      rw [if_neg hnok', if_neg (by rw [headStateAt_good rfl, ← hstb]; exact hnok2)]
    obtain ⟨ok, s₃, h5, h6⟩ := run_bind_iff.1 h4
    cases ok with
    | true =>
      obtain ⟨-, rfl⟩ := run_pure_iff.1 h6
      exact ⟨0, swapCreateNewHead_took hE hR hsec2 (by rw [hchosen, hnone]; rfl) h5⟩
    | false =>
      obtain ⟨u, s₄, -, h8⟩ := run_bind_iff.1 h6
      exact absurd (run_pure_iff.1 h8).1 (by simp)

/-- What a start has to find for the driver to be in step afterwards. -/
structure SoundDisk (R : ℕ) (disk : ℕ → Sector) : Prop where
  /-- Not all of the 128 blocks before the table are marked invalid. -/
  head : ∃ i < 128, (headAt disk (R + swapHeadOffest) (128 * i)).state ≠ .invalid
  /-- What the loader accepts in the two tables is for the spare blocks. -/
  table : ∀ a, a = swapTableOffset ∨ a = swapTableBackupOffset → ∀ k < 32, ∀ l,
    let t := tableSlots (area disk R a k) l
    t.acceptable R = true → t.swapSec.toNat + 128 ≤ R + swapDataOffset + 128 * maxSwapBlock
  /-- Every valid entry, before the end of a table or behind it, has its block marked. -/
  bits : ∀ a, a = swapTableOffset ∨ a = swapTableBackupOffset → ∀ k < 32,
    UsesOnly (fun i => (chosenBitmap R disk).getLsbD i = true) (area disk R a k)

variable {g₀ : Geom}

theorem SoundDisk.startable {disk : ℕ → Sector} (h : SoundDisk R disk) (hE : E.TakesRecords R)
    (hr : E.ReadsHeads R) (hR : R + maxReservedSector ≤ 2 ^ 32) : Startable E R disk := by
  obtain ⟨i, hi, hst⟩ := h.head
  exact ⟨⟨i, hi, fun t => hr t _ (region_head hR (by omega)), hst, hE.writable hR hi⟩, h.table⟩

/-- The load keeps what is on the disk. -/
theorem persisted_rule {h : ℕ} (disk : ℕ → Sector) (s₀ : World) (hE : E.TakesRecords R)
    (hR : R + maxReservedSector ≤ 2 ^ 32) (hj : j < 128) (hlaid : (bootGeom g₀ R h).Laid R) :
    LoaderRule E (bootGeom g₀ R h) (fun a k => slotsOf (disk ((a + k) % 2 ^ 32)))
      fun a s => Loading (fun _ => True) g₀ R h disk s₀ a s ∧ Persisted R j K s.disk := by
  have hload : LoaderRule E (bootGeom g₀ R h) _ (Loading (fun _ => True) g₀ R h disk s₀) := 
    loading_rule disk s₀ fun _ _ => trivial
  refine ⟨fun a s hs => hload.geom a s hs.1, hload.apart,
    fun a s s' hs hsend hg => ⟨hload.block a s s' hs.1 hsend hg, ?_⟩,
    fun a k s us hs => hload.slot a k s us hs.1, ?_⟩
  · exact ((hsend.mono fun c hc => hc.spares hlaid (by simp)).spares hR hj hs.2).2 K hs.2
  · rintro a a' pos t b s s' ⟨hl, hp⟩ ⟨k, hk, s₀, ⟨hl₀, hp₀⟩, rfl⟩ ha ha' hne hlo hhi hrun
    refine ⟨hload.skip a a' pos t _ s s' hl ⟨k, hk, s₀, hl₀, rfl⟩ ha ha' hne hlo hhi hrun, ?_⟩
    obtain ⟨c, hc, rfl⟩ := ha.offset
    obtain ⟨c', hc', rfl⟩ := ha'.offset
    have hb : UsesOnly K (s₀.disk ((R + c + k) % 2 ^ 32)) := by
      rw [Nat.add_assoc]
      exact hp₀.slots c hc k hk
    rw [show pos = R + (c' + (pos - (R + c'))) by omega] at hrun
    exact (writeSkip_safe hE hR hj hc' (by omega) hb hp hrun).2.2.2

/-- **The core's start** leaves a head and tables that agree, and loads what they say. -/
theorem scsiSwapCoreInit_sound (hE : E.TakesRecords R) (hr : E.ReadsHeads R) (hR : R + maxReservedSector ≤ 2 ^ 32)
    (hs : SoundDisk R s.disk) (hlog : s.geom.logCap = none) (h : (scsiSwapCoreInit E R).run s = some (true, s')) :
    ∃ j K, s'.Holding R j K ∧ s'.view.UsesOnly K := by
  obtain ⟨hlaid', -⟩ := (scsiSwapCoreInit_regions hR (hs.startable hE hr hR) hlog h).2 rfl
  unfold scsiSwapCoreInit at h
  rw [run_modify_bind] at h
  obtain ⟨found, s₁, h1, h2⟩ := run_bind_iff.1 h
  cases found with
  | false => exact absurd (run_pure_iff.1 h2).1 (by simp)
  | true =>
    obtain ⟨i, hi, hst⟩ := hs.head
    obtain ⟨hs1, j', hj', hg1⟩ := initHeadLoop_writes (R := R) (H := R + swapHeadOffest) (j := 0) h1
      ⟨fun t => hr t _ (region_head hR (by omega)), hst, hE.writable hR hi⟩ (Nat.zero_le _)
      (by simp only [maxSwapHeadBlockNum]; omega) (by simp only [maxSwapHeadBlockNum]; omega)
      (show _ = bootGeom s.geom R (R + swapHeadOffest) from rfl)
    obtain ⟨j, htook⟩ := initHeadLoop_took hE hr hR (i := 0) h1 (fun k hk => absurd hk (Nat.not_lt_zero k))
      ⟨i, hi, Nat.zero_le _, hst⟩ rfl
    -- the head that is taken is the one that is written
    obtain rfl : j = j' := by
      have h1 : R + swapHeadOffest + 128 * j' = s₁.core.sectorHead := (congrArg Geom.head hg1).symm
      have h2 := htook.sector
      omega
    have hlaid := bootGeom_laid hR hlog htook.lt
    -- up to here the tables are as they were
    have hkeep : ∀ a k, TableStart (bootGeom s.geom R (R + swapHeadOffest + 128 * j)) a → k < 32 →
        s₁.disk ((a + k) % 2 ^ 32) = s.disk ((a + k) % 2 ^ 32) := by
      intro a k ha hk
      obtain ⟨l, -, hf, hl⟩ := hs1
      exact (hf.keeps fun c hc => (hl c hc).spares hi ha hk).1
    have hp1 : Persisted R j (fun i => (chosenBitmap R s.disk).getLsbD i = true) s₁.disk := by
      refine ⟨htook.before, htook.state, fun i hi => ?_, fun a ha k hk => ?_⟩
      · rw [htook.bitmap, htook.chosen]
        exact hi
      · have hsame : area s₁.disk R a k = area s.disk R a k := by
          unfold area
          rw [← Nat.add_assoc]
          refine hkeep (R + a) k ?_ hk
          rcases ha with rfl | rfl
          · exact Or.inl rfl
          · exact Or.inr rfl
        rw [hsame]
        exact hs.bits a ha k hk
    rw [if_pos rfl] at h2
    obtain ⟨loaded, s₂, h3, h4⟩ := run_bind_iff.1 h2
    cases loaded with
    | false =>
      unfold swapInfoDestroy at h4
      rw [if_neg (by simp), run_modify_bind] at h4
      exact absurd (run_pure_iff.1 h4).1 (by simp)
    | true =>
      rw [if_pos rfl, run_modify_bind] at h4
      obtain ⟨-, rfl⟩ := run_pure_iff.1 h4
      -- the load keeps what is persisted, and lists entries of the disk only
      have hrule := persisted_rule s.disk s₁
        (K := fun i => (chosenBitmap R s.disk).getLsbD i = true) hE hR htook.lt hlaid
      obtain ⟨a, ts, ha, ⟨hload, hp2⟩, hl, hf, hhead⟩ := initSwapInfo_rule hrule h3 fun a ha =>
        ⟨⟨hg1, ha, .refl _, fun k hk => Or.inl (hkeep a k ha hk)⟩, hp1⟩
      have hview : s₂.view.head = s₁.view.head := hhead rfl
      refine ⟨j, _, ⟨htook.lt, hlaid', ?_, ?_, fun i hi => ?_, hp2⟩, fun p hp => ?_⟩
      · exact (congrArg Geom.head hload.geom).trans (Nat.add_assoc ..)
      · show s₂.view.head.Named
        rw [hview]
        exact htook.named
      · show s₂.view.bitmap.getLsbD i = true
        unfold View.bitmap
        rw [hview, show s₁.view.head.bitmap = chosenBitmap R s.disk from htook.chosen]
        exact hi
      · obtain ⟨c, hc, k, hk, l, hslot, hacc⟩ := hf.slot ha (hl.table hp)
        show (chosenBitmap R s.disk).getLsbD (s₂.view.info p).table.index.toNat = true
        rw [← hslot]
        exact hs.bits c hc k hk l hacc.valid

/-- **A start on a sound disk** leaves the driver in step with it. -/
theorem scsiSwapInit_inStep (hE : E.TakesRecords R) (hr : E.ReadsHeads R) (hR : R + maxReservedSector ≤ 2 ^ 32)
    (hs : SoundDisk R s.disk) (h : (scsiSwapInit E R).run s = some (true, s')) : s'.InStep R := by
  obtain ⟨hlaid, hplace⟩ := (scsiSwapInit_regions hR (hs.startable hE hr hR) h).2 rfl
  unfold scsiSwapInit at h
  obtain ⟨mem, s₁, h1, h2⟩ := run_bind_iff.1 h
  have hq := kmalloc_quiet _ _ _ h1
  cases mem with
  | false => exact absurd (run_pure_iff.1 h2).1 (by simp)
  | true =>
    rw [if_pos rfl, run_modify_bind] at h2
    obtain ⟨up, s₂, h3, h4⟩ := run_bind_iff.1 h2
    cases up with
    | false => exact absurd (run_pure_iff.1 h4).1 (by simp)
    | true =>
      obtain ⟨j, K, hh, hu⟩ := scsiSwapCoreInit_sound hE hr hR (by
        rw [show s₁.fresh.disk = s.disk from hq.2]
        exact hs) rfl h3
      obtain ⟨x, s₃, h5, h6⟩ := run_bind_iff.1 h4
      obtain ⟨-, rfl⟩ := run_pure_iff.1 h6
      obtain ⟨-, g, hv, hg, -⟩ := scsiSwapLogInit_view h5
      refine ⟨hplace, j, K, ⟨hh.lt, hlaid,
        ?_, by rw [hv]; exact hh.named, by rw [hv]; exact hh.bits, ?_⟩, by rw [hv]; exact hu⟩
      · rw [show s'.geom = g from congrArg View.geom hv, hg]
        exact hh.sector
      · rw [(scsiSwapLogInit_quiet _ _ _ _ _ h5).2]
        exact hh.disk

/-! ## Requests -/

/-- The request is for the disk below the reserve, and moves no mapping of the list. -/
def Request.Unmoved (E : Env) (R : ℕ) (s : World) (o : Request) : Prop :=
  o.isWrite = true → o.start + o.count ≤ R ∧ ∀ g t, WriteRound E o.start (badIndex o.bad) o.buf
    (getSwapBlockCount o.start (s32 o.count)).toNat 0 o.count 0
      { s with core := { s.core with user := s.core.user + 1 } } g t → Stays E t g fun k => o.buf (g.off + k)

theorem inStep_roundRel : RoundRel fun s s' => s.InStep R → Sends (Sent.Safe R) s s' ∧ s'.InStep R := by
  refine ⟨fun s h => ⟨.refl _, h⟩, fun s t u h1 h2 h => ?_, fun s n h => ?_⟩
  · obtain ⟨hs1, ht⟩ := h1 h
    obtain ⟨hs2, hu⟩ := h2 ht
    exact ⟨hs1.trans hs2, hu⟩
  · obtain ⟨hplace, j, K, hh, hu⟩ := h
    exact ⟨Quiet.sends ⟨rfl, rfl⟩, hplace, j, K, ⟨hh.lt, hh.laid, hh.sector, hh.named, hh.bits, hh.disk⟩, hu⟩

theorem serve_inStep {o : Request} {a : Reply} (hE : E.TakesRecords R) (hs : s.InStep R) (ho : o.Unmoved E R s)
    (h : (o.serve E).run s = some (a, s')) : Sends (Sent.Safe R) s s' ∧ s'.InStep R := by
  refine serve_rounds inStep_roundRel h (fun hw g t r t' hg hb ht => ?_) (fun g _ buf t r t' hb ht => ?_) hs
  · obtain ⟨hrange, hst⟩ := ho hw
    obtain ⟨j, K, hh, -⟩ := hs.hold
    have hR := hh.size
    simp only [maxReservedSector] at hR
    obtain ⟨-, hend⟩ := visited_range (by omega) (show g ∈ visited o.start o.count from hg.mem)
    exact coreWriteBlock_safe hE ht (hend.trans hrange) (hst g t hg) hb
  · exact coreReadBlock_safe hE ht hb

/-- **Head before table.** After a start on a sound disk, in any run of requests that move no mapping, the power
may go after any sector that was written: no mapping that the next start would load is for a block
that is free in the bitmap it would load. Spare blocks and the disk itself may fail at will. -/
theorem power_cut_safe {w s₁ : World} (hR : R + maxReservedSector ≤ 2 ^ 32) (hE : E.TakesRecords R)
    (hr : E.ReadsHeads R) (hw : SoundDisk R w.disk) (hinit : (scsiSwapInit E R).run w = some (true, s₁))
    (h : Reach (Request.serve E) (Request.Unmoved E R) s₁ s) {d : ℕ → Sector} (hd : CutDisk s₁ s d) :
    CrashSafe R d := by
  have hstart := scsiSwapInit_inStep hE hr hR hw hinit
  have hinv : Sends (Sent.Safe R) s₁ s ∧ s.InStep R := by
    refine h.inv (I := fun t => Sends (Sent.Safe R) s₁ t ∧ t.InStep R) ⟨.refl _, hstart⟩ ?_
    rintro t o a t' ⟨hsend, ht⟩ ho hserve
    obtain ⟨hsend', ht'⟩ := serve_inStep hE ht ho hserve
    exact ⟨hsend.trans hsend', ht'⟩
  obtain ⟨j, K, hh, -⟩ := hstart.hold
  exact hinv.1.cut hR ⟨j, hh.lt, K, hh.disk⟩ hd

theorem soundDisk_blank : SoundDisk 1000 World.blank.disk :=
  ⟨⟨0, by decide, by decide +kernel⟩, (startable_blank fun _ _ _ => rfl).table, fun _ _ _ _ => usesOnly_zero⟩

theorem takesRecords_refusing {refuses : Cmd → (ℕ → Sector) → Bool}
    (h : ∀ x buf, Records 1000 x → refuses ⟨x, 1, 5⟩ buf = false) : (Env.refusing refuses).TakesRecords 1000 := by
  intro t x buf hx
  show (if refuses ⟨x, 1, 5⟩ buf then IoResult.fail (fun _ => none) false else IoResult.ok) = IoResult.ok
  rw [h x buf hx]
  rfl

/-- A request of one block has one round. -/
theorem unmoved_fill {start : ℕ} {b : ByteCodec.Byte} (hn : (getSwapBlockCount start (s32 128)).toNat = 1)
    (hstart : start + 128 ≤ R) (h : Stays E { s with core := { s.core with user := s.core.user + 1 } }
      (segAt start 0 128 0) fun _ _ => b) : (Request.fill start b).Unmoved E R s := by
  refine fun _ => ⟨hstart, fun g t hround => ?_⟩
  rw [show (getSwapBlockCount (Request.fill start b).start (s32 (Request.fill start b).count)).toNat = 1
    from hn] at hround
  cases hround with
  | here => exact h
  | next h hr hn => cases hn

/-- A blank disk that cannot write its 1000 sectors. The first write makes a mapping, the second one goes
there. -/
theorem power_cut_safe_blank :
    let E := Env.refusing fun c _ => c.lba < 1000
    ∃ s₁ s as, (scsiSwapInit E 1000).run World.blank = some (true, s₁) ∧
      (session E [Request.fill 0 1, Request.fill 0 2]).run s₁ = some (as, s) ∧ s.core.infoNum = 1 ∧
      ∀ d, CutDisk s₁ s d → CrashSafe 1000 d := by
  intro E
  have hrun : ((do
      let ok ← scsiSwapInit E 1000
      let s₁ ← get
      let a₁ ← (Request.fill 0 1).serve E
      let s₂ ← get
      let a₂ ← (Request.fill 0 2).serve E
      let s ← get
      return decide (ok = true ∧ s₁.core.infoList = [] ∧ s.core.infoNum = 1 ∧
        ∀ p ∈ s₂.core.infoList, 1000 ≤ (s₂.heap p).table.swapSec.toNat % 2 ^ 32) :
          SwapM Bool).run World.blank).map Prod.fst = some true := by decide +kernel
  obtain ⟨s', h⟩ := run_of_result hrun
  obtain ⟨ok, s₁, h1, h⟩ := run_bind_iff.1 h
  rw [run_get_bind] at h
  obtain ⟨a₁, s₂, h2, h⟩ := run_bind_iff.1 h
  rw [run_get_bind] at h
  obtain ⟨a₂, s₃, h3, h⟩ := run_bind_iff.1 h
  rw [run_get_bind] at h
  obtain ⟨e, rfl⟩ := run_pure_iff.1 h
  obtain ⟨rfl, hempty, hnum, hspare⟩ := of_decide_eq_true e.symm
  have hm1 : (Request.fill 0 1).Unmoved E 1000 s₁ := by
    refine unmoved_fill (by decide) (by decide) fun p d hp => ?_
    simp [World.swapFindSwapInfo, hempty] at hp
  have hm2 : (Request.fill 0 2).Unmoved E 1000 s₂ := by
    refine unmoved_fill (by decide) (by decide) fun p d hp _ _ => ?_
    have hlba := hspare p (View.find_some (find_view _ ▸ hp)).1
    show (if decide ((s₂.heap p).table.swapSec.toNat % 2 ^ 32 < 1000) then _ else IoResult.ok).isOk = true
    rw [if_neg (by simpa using hlba)]
    rfl
  refine ⟨s₁, s', [a₁, a₂], h1, ?_, hnum, fun d hd => ?_⟩
  · exact (run_bind_of h2).trans ((run_bind_of ((run_bind_of h3).trans rfl)).trans rfl)
  · refine power_cut_safe (by decide) (takesRecords_refusing fun x buf hx => ?_)
      (fun _ _ _ => rfl) soundDisk_blank h1
      (.step (.step .start hm1 h2) hm2 h3) hd
    unfold Records Region at hx
    simp only [swapHeadOffest, swapTableOffset, swapDataOffset, swapTableBackupOffset,
      maxReservedSector, sector8M] at hx
    simp only [decide_eq_false_iff_not]
    omega

/-- A mapping for a free block. -/
theorem not_crashSafe {d : ℕ → Sector} (hj : j < 128)
    (hb : ∀ i < j, (headAt d (R + swapHeadOffest) (128 * i)).state = .invalid)
    (hok : (headAt d (R + swapHeadOffest) (128 * j)).state = .ok) {t : SwapTable} (ht : t ∈ chosenTable R d)
    (hbit : (headAt d (R + swapHeadOffest) (128 * j)).bitmap.getLsbD t.index.toNat = false) :
    ¬ CrashSafe R d := by
  intro hsafe
  have hc := hsafe t ht
  rw [chosenBitmap_eq (by simp only [maxSwapHeadBlockNum]; omega) hb (by rw [hok]; simp),
    show found (fun _ => false) d (R + swapHeadOffest) j = some (headAt d (R + swapHeadOffest) (128 * j)) from
      if_pos ((headStateAt_good rfl).trans hok)] at hc
  exact absurd (hc.symm.trans hbit) (by simp)

/-- The power may go after any command. -/
theorem cutDisk_drop {l : List Sent} (hs : s'.sent = l ++ s.sent) {i : ℕ} (hi : i < l.length) :
    CutDisk s s' (diskAfter s.disk (l.drop i)) := by
  refine Or.inr ⟨l.take i, l[i], l.drop (i + 1), ?_, fun x => Or.inr ?_⟩
  · rw [hs, ← List.drop_eq_getElem_cons hi, List.take_append_drop]
  · rw [List.drop_eq_getElem_cons hi]
    rfl

theorem CutDisk.after {A : Sent → Prop} {s₀ : World} {d : ℕ → Sector} (h : CutDisk s s' d) (h0 : Sends A s₀ s) :
    CutDisk s₀ s' d := by
  rcases h with h | ⟨l, c, l', hs, hx⟩
  · exact Or.inl h
  · obtain ⟨m, hm, hf, -⟩ := h0
    refine Or.inr ⟨l, c, l' ++ m, by rw [hs, hm]; simp, fun x => ?_⟩
    have hsame : diskAfter s₀.disk (l' ++ m) = diskAfter s.disk l' := by
      cases l' with
      | nil => exact hf.eq_diskAfter.symm
      | cons c' l' => rfl
    rw [hsame]
    exact hx x

/-- **A move is written before its block is marked.** A blank disk that cannot write its 1000 sectors, nor twos
to its first spare block. The second write moves the mapping to the second spare block. After the table and before
the head, that block is free on the disk. -/
theorem power_cut_unsafe :
    let E := Env.refusing fun c b => c.lba < 1000 || (c.lba = 50152 && b 0 0 = 2)
    E.TakesRecords 1000 ∧ CrashSafe 1000 World.blank.disk ∧
    ∃ s₁ s as d, (scsiSwapInit E 1000).run World.blank = some (true, s₁) ∧
      (session E [Request.fill 0 1, Request.fill 0 2]).run s₁ = some (as, s) ∧ CutDisk s₁ s d ∧
        ¬ CrashSafe 1000 d := by
  intro E
  have hE : E.TakesRecords 1000 := by
    refine takesRecords_refusing fun x buf hx => ?_
    unfold Records Region at hx
    simp only [swapHeadOffest, swapTableOffset, swapDataOffset, swapTableBackupOffset,
      maxReservedSector, sector8M] at hx
    have h1 : ¬ x < 1000 := by omega
    have h2 : x ≠ 50152 := by omega
    simp [h1, h2]
  have hrun : ((do
      let ok ← scsiSwapInit E 1000
      let s₁ ← get
      let a₁ ← (Request.fill 0 1).serve E
      let s₂ ← get
      let a₂ ← (Request.fill 0 2).serve E
      let s ← get
      let l := s.sent.take (s.sent.length - s₂.sent.length)
      return decide (ok = true ∧ s₁.core.infoList = [] ∧ s₂.core.sectorHead = 1000 + swapHeadOffest ∧
        (headAt s₂.disk (1000 + swapHeadOffest) 0).bitmap.getLsbD 1 = false ∧
        ∃ i ∈ List.range l.length, (∀ c ∈ l.drop i,
          ¬ (c.lba ≤ 1000 + swapHeadOffest ∧ 1000 + swapHeadOffest < c.lba + c.count)) ∧
          (chosenTable 1000 (diskAfter s₂.disk (l.drop i))).map (fun t => t.index.toNat) = [1]) : SwapM Bool).run
      World.blank).map Prod.fst = some true := by decide +kernel
  obtain ⟨s', h⟩ := run_of_result hrun
  obtain ⟨ok, s₁, h1, h⟩ := run_bind_iff.1 h
  rw [run_get_bind] at h
  obtain ⟨a₁, s₂, h2, h⟩ := run_bind_iff.1 h
  rw [run_get_bind] at h
  obtain ⟨a₂, s₃, h3, h⟩ := run_bind_iff.1 h
  rw [run_get_bind] at h
  obtain ⟨e, rfl⟩ := run_pure_iff.1 h
  obtain ⟨rfl, hempty, hsec, hbit, i, hi, hhead, htable⟩ := of_decide_eq_true e.symm
  -- up to the first request the driver is in step
  have hm1 : (Request.fill 0 1).Unmoved E 1000 s₁ := by
    refine unmoved_fill (by decide) (by decide) fun p d hp => ?_
    simp [World.swapFindSwapInfo, hempty] at hp
  have hinit := scsiSwapInit_inStep hE (fun _ _ _ => rfl) (by decide) soundDisk_blank h1
  obtain ⟨hsend, hplace, j, K, hh, -⟩ := serve_inStep hE hinit hm1 h2
  obtain rfl : j = 0 := by
    have hj : s₂.core.sectorHead = _ := hh.sector
    omega
  -- in the second one, the head is not written before the table
  obtain ⟨-, -, l, hl, hf, -⟩ := serve_orderly h3 hplace
  rw [hl, List.length_append, Nat.add_sub_cancel, List.take_left] at hi hhead htable
  have hcut := cutDisk_drop hl (List.mem_range.1 hi)
  have hsame : headAt (diskAfter s₂.disk (l.drop i)) (1000 + swapHeadOffest) 0 =
      headAt s₂.disk (1000 + swapHeadOffest) 0 := by
    rw [← List.take_append_drop i l] at hf
    have hkeep := (hf.drop.keeps hhead).1
    unfold headAt
    rw [show (1000 + swapHeadOffest + 0) % 2 ^ 32 = 1000 + swapHeadOffest from rfl, hkeep]
  have ht : ∃ t ∈ chosenTable 1000 (diskAfter s₂.disk (l.drop i)), t.index.toNat = 1 := by
    rw [← List.mem_map, htable]
    exact List.mem_cons_self
  obtain ⟨t, ht, hidx⟩ := ht
  refine ⟨hE, by decide +kernel, s₁, s', [a₁, a₂], _, h1, ?_, hcut.after hsend, ?_⟩
  · exact (run_bind_of h2).trans ((run_bind_of ((run_bind_of h3).trans rfl)).trans rfl)
  · refine not_crashSafe (j := 0) (by decide) (fun i hi => absurd hi (Nat.not_lt_zero i)) ?_ ht ?_
    · rw [hsame]
      exact hh.disk.head
    · rw [hsame, hidx]
      exact hbit

end ScsiSwap
