import ScsiSwap.Proof.Head
import ScsiSwap.Proof.Load

/-!
# Who writes where in the reserve

The reserve is divided between the head, the table with its backup, the spare blocks and the log
(`Region`, `region_disjoint`).

* `initSwapHead_writes`: the search for a head stays below the first block that works;
* `scsiSwapInit_regions`: so does a start on the whole, if the table on the disk has no entry for
  sectors outside the spare blocks;
* `regions_kept`: in a run of starts, requests and log entries everyone then keeps to their region.
-/

namespace ScsiSwap

open StateOption

variable {E : Env} {s s' : World} {g₀ : Geom} {R H i : ℕ}

/-! ## The regions -/

/-- The sectors that belong to a writer, on a disk whose reserve starts at `R`. A request may go
anywhere. -/
def Region (R : ℕ) : Writer → ℕ → Prop
  | .head, x => R + swapHeadOffest ≤ x ∧ x < R + swapTableOffset
  | .table, x => (R + swapTableOffset ≤ x ∧ x < R + swapDataOffset) ∨
      (R + swapTableBackupOffset ≤ x ∧ x < R + maxReservedSector)
  | .block, x => R + swapDataOffset ≤ x ∧ x < R + swapDataOffset + 128 * maxSwapBlock
  | .log, x => R + swapLogHeadOffset ≤ x ∧ x < R + swapTableBackupOffset
  | .user, _ => True

/-- Every sector the command may write is its writer's. -/
def Sent.InRegion (R : ℕ) (c : Sent) : Prop := ∀ x, c.Has x → Region R c.writer x

/-- No sector belongs to two parts of the driver. -/
theorem region_disjoint {w w' : Writer} {x : ℕ} (hw : w ≠ .user) (hw' : w' ≠ .user) (h : Region R w x)
    (h' : Region R w' x) : w = w' := by
  cases w <;> cases w' <;> simp only [Region, swapHeadOffest, swapTableOffset, swapDataOffset,
    swapTableBackupOffset,
    swapLogHeadOffset, maxReservedSector, maxSwapBlock, sector8M, ne_eq, not_true_eq_false, reduceCtorEq]
      at * <;> omega

/-- Everything is at its place in the reserve at `R`, and the head in one of the 128 blocks that
come before the table. -/
structure Geom.Laid (R : ℕ) (g : Geom) : Prop where
  ok : g.Ok
  reserve : g.reserve = R
  head : g.head + 128 ≤ R + swapTableOffset

theorem Tidy.inRegion {g : Geom} {c : Sent} (hg : g.Laid R) (h : Tidy g c) : c.InRegion R := by
  obtain ⟨⟨hsize, htable, hdata, hhead, hlog⟩, rfl, hroom⟩ := hg
  intro x hx
  unfold Sent.Has at hx
  unfold Tidy at h
  cases hw : c.writer with
  | user => exact trivial
  | head =>
    rw [hw] at h
    obtain ⟨h1, h2⟩ := h
    simp only [maxReservedSector, swapHeadOffest, swapTableOffset, sector8M, maxSwapHeadBlockNum]
      at hsize hhead hroom
    show g.reserve + swapHeadOffest ≤ x ∧ x < g.reserve + swapTableOffset
    simp only [swapHeadOffest, swapTableOffset, sector8M]
    rcases h1 with h1 | h1 <;> omega
  | table =>
    rw [hw] at h
    obtain ⟨h1, h2⟩ := h
    simp only [maxReservedSector, swapTableOffset, sector8M] at hsize htable
    show _ ∨ _
    simp only [swapTableOffset, swapDataOffset, swapTableBackupOffset, maxReservedSector, sector8M]
    rcases h1 with ⟨k, hk, h1⟩ | ⟨k, hk, h1⟩
    · omega
    · simp only [swapTableBackupOffset, maxReservedSector, sector8M] at h1
      omega
  | block =>
    rw [hw] at h
    obtain ⟨a, h1, h2, h3, h4⟩ := h
    simp only [maxReservedSector, swapDataOffset, sector8M, maxSwapBlock] at hsize hdata h2
    show _ ∧ _
    simp only [swapDataOffset, maxSwapBlock, sector8M]
    omega
  | log =>
    rw [hw] at h
    obtain ⟨⟨cap, hcap, h1⟩, h2⟩ := h
    obtain ⟨rfl, h3, h4⟩ := hlog cap hcap
    simp only [maxReservedSector, swapLogHeadOffset, swapLogDataOffset, swapTableBackupOffset, sector8M, sector1M]
      at hsize h3 h4
    show _ ∧ _
    simp only [swapLogHeadOffset, swapTableBackupOffset, maxReservedSector, sector8M]
    rcases h1 with h1 | ⟨slot, hs, h1⟩
    · omega
    · have hslot : slot < 512 := by simp only [logItemCap] at hs; omega
      omega

/-! ## The search for a head -/

/-- A command for one sector of the first `i + 1` blocks from `H` on. -/
def HeadWrite (H i : ℕ) (c : Sent) : Prop :=
  c.writer = .head ∧ c.count = 1 ∧ ∃ k < 128 * (i + 1), c.lba = (H + k) % 2 ^ 32

theorem HeadWrite.inRegion {c : Sent} (h : HeadWrite (R + swapHeadOffest) i c) (hi : i < 128)
    (hR : R + maxReservedSector ≤ 2 ^ 32) : c.InRegion R := by
  obtain ⟨hw, hc, k, hk, hl⟩ := h
  intro x hx
  unfold Sent.Has at hx
  rw [hw]
  show _ ∧ _
  simp only [maxReservedSector, swapHeadOffest, swapTableOffset, sector8M] at *
  omega

theorem writeHead_sends {r k : ℕ} {b : Sector} {a : Bool} (hk : k < 128 * (i + 1))
    (h : (hdWriteSector E .head r (H + k) 1 fun _ => b).run s = some (a, s')) : Sends (HeadWrite H i) s s' :=
  (hdWriteSector_sends h).mono fun _ hc => ⟨hc.1, hc.2.2, k, hk, hc.2.1⟩

/-- The 128 sectors of block `i` can be written. -/
def Env.Writable (E : Env) (H i : ℕ) : Prop :=
  ∀ t k buf, k < 128 → E.write t ⟨(H + (128 * i + k)) % 2 ^ 32, 1, 5⟩ buf = .ok

/-- Probing block `j`. -/
theorem swapCheckBlockBySector_writes {j : ℕ} (hj : j ≤ i) : ∀ {n k : ℕ} {s s' : World} {r : Option ℕ},
    (swapCheckBlockBySector E (H + 128 * j) n k).run s = some (r, s') → k + n = 128 →
    Sends (HeadWrite H i) s s' ∧ s'.geom = s.geom ∧ (E.Writable H j → r = none) := by
  intro n
  induction n with
  | zero =>
    intro k s s' r h _
    obtain ⟨rfl, rfl⟩ := run_pure_iff.1 h
    exact ⟨.refl _, rfl, fun _ => rfl⟩
  | succ n ih =>
    intro k s s' r h hk
    unfold swapCheckBlockBySector at h
    obtain ⟨ok, s₁, h1, h2⟩ := run_bind_iff.1 h
    rw [show H + 128 * j + k = H + (128 * j + k) by omega] at h1
    have hs : Sends (HeadWrite H i) s s₁ := writeHead_sends (by omega) h1
    have hg : s₁.geom = s.geom := (hdWriteSector_dev h1).geom
    have hok := (hdWriteSector_one h1).1
    cases ok with
    | true =>
      obtain ⟨hs2, hg2, hr⟩ := ih h2 (by omega)
      exact ⟨hs.trans hs2, hg2.trans hg, hr⟩
    | false =>
      obtain ⟨-, rfl⟩ := run_pure_iff.1 h2
      refine ⟨hs, hg, fun hw => ?_⟩
      rw [hw _ _ _ (by omega)] at hok
      exact absurd hok (by simp [IoResult.isOk])

theorem swapCreateNewHead'_writes {j : ℕ} {a : Bool} (hj : j ≤ i)
    (h : (swapCreateNewHead' E).run s = some (a, s'))
    (hs : s.core.sectorHead = H + 128 * j) : Sends (HeadWrite H i) s s' ∧ s'.geom = s.geom := by
  unfold swapCreateNewHead' at h
  rw [run_modify_bind] at h
  have hg : s'.geom = s.geom := (flushSwapHead_dev h).geom
  refine ⟨Quiet.trans_sends ?_ ((flushSwapHead_sends h).mono ?_), hg⟩
  · exact ⟨rfl, rfl⟩
  · rintro c ⟨hw, ht⟩
    have hw' : c.writer = .head := List.mem_singleton.1 hw
    unfold Tidy at ht
    rw [hw'] at ht
    have hhead : ∀ x, HeadArea s.geom x → ∃ k < 128 * (i + 1), x = (H + k) % 2 ^ 32 := by
      rintro x (hx | hx)
      · exact ⟨128 * j, by omega, by rw [hx]; exact congrArg (· % 2 ^ 32) hs⟩
      · refine ⟨128 * j + 64, by omega, ?_⟩
        rw [hx, show s.geom.head = H + 128 * j from hs, Nat.add_assoc]
    exact ⟨hw', ht.2, hhead _ ht.1⟩

theorem markInvalid_writes {j bad : ℕ} {u : PUnit} (hj : j ≤ i) (h : (markInvalid E bad).run s = some (u, s'))
    (hs : s.core.sectorHead = H + 128 * j) : Sends (HeadWrite H i) s s' ∧ s'.geom = s.geom := by
  unfold markInvalid at h
  split at h
  · rw [run_modify_bind] at h
    obtain ⟨a, s₁, h1, h2⟩ := run_bind_iff.1 h
    obtain ⟨-, rfl⟩ := run_pure_iff.1 h2
    obtain ⟨hsend, hg⟩ := swapCreateNewHead'_writes (i := i) hj h1 hs
    exact ⟨Quiet.trans_sends (by exact ⟨rfl, rfl⟩) hsend, hg⟩
  · obtain ⟨-, rfl⟩ := run_pure_iff.1 h
    exact ⟨.refl _, rfl⟩

/-- The search for a place goes no further than a block that can be written. -/
theorem createHeadLoop_writes (hE : E.Writable H i) : ∀ {n j : ℕ} {s s' : World} {a : Bool},
    (createHeadLoop E n).run s = some (a, s') → j ≤ i → i < j + n → s.geom = bootGeom g₀ R (H + 128 * j) →
    Sends (HeadWrite H i) s s' ∧ ∃ j' ≤ i, s'.geom = bootGeom g₀ R (H + 128 * j') := by
  intro n
  induction n with
  | zero => intro j s s' a _ _ _; omega
  | succ n ih =>
    intro j s s' a h hj hn hg
    have hhead : s.core.sectorHead = H + 128 * j := congrArg Geom.head hg
    unfold createHeadLoop at h
    rw [run_get_bind] at h
    obtain ⟨r, s₁, h1, h2⟩ := run_bind_iff.1 h
    rw [hhead] at h1
    obtain ⟨hs1, hg1, hnone⟩ := swapCheckBlockBySector_writes hj h1 rfl
    rw [hg] at hg1
    have hhead1 : s₁.core.sectorHead = H + 128 * j := congrArg Geom.head hg1
    cases r with
    | none =>
      dsimp only at h2
      rw [run_modify_bind] at h2
      obtain ⟨hs2, hg2⟩ := swapCreateNewHead'_writes (i := i) hj h2 hhead1
      refine ⟨hs1.trans (Quiet.trans_sends ?_ hs2), j, hj, hg2.trans hg1⟩
      exact ⟨rfl, rfl⟩
    | some bad =>
      -- block `i` would have passed, so there is a next one
      have hlt : j < i := by
        refine Nat.lt_of_le_of_ne hj fun he => ?_
        exact absurd (hnone (he ▸ hE)) (by simp)
      obtain ⟨u, s₂, h3, h4⟩ := run_bind_iff.1 h2
      obtain ⟨hs2, hg2⟩ := markInvalid_writes (i := i) hj h3 hhead1
      rw [run_modify_bind] at h4
      have hg3 : s₂.geom = bootGeom g₀ R (H + 128 * j) := hg2.trans hg1
      obtain ⟨hs3, hj3⟩ := ih (j := j + 1) h4 hlt (by omega) (by
        rw [show H + 128 * (j + 1) = H + 128 * j + 128 by omega]
        exact congrArg (fun g : Geom => ({ g with head := g.head + 128 } : Geom)) hg3)
      refine ⟨(hs1.trans hs2).trans (Quiet.trans_sends ?_ hs3), hj3⟩
      exact ⟨rfl, rfl⟩

/-- The state of a head that can be read. -/
theorem swapGetHeadState_ok {sector : ℕ} {old head : SwapHead} {st : HeadState}
    (h : (swapGetHeadState E sector old).run s = some ((st, head), s'))
    (hE : ∀ t, E.read t ⟨sector % 2 ^ 32, 1, 5⟩ = .ok) : st = (headAt s.disk sector 0).state := by
  unfold swapGetHeadState at h
  obtain ⟨⟨ok, buf⟩, s₁, h1, h2⟩ := run_bind_iff.1 h
  obtain ⟨e, -⟩ := run_pure_iff.1 h2
  have hok : ok = true := by
    have h1' : (hdReadSector E 5 sector 1).run s = some ((ok, buf), s₁) := h1
    rw [hdReadSector_run, show 1 % 2 ^ 16 = 1 from rfl, hE] at h1'
    exact (congrArg (fun r => r.1.1) (Option.some.inj h1')).symm
  subst hok
  rw [hdReadSector_one h1] at e
  exact (Prod.mk.inj e).1

theorem swapGetHeadState_quiet (sector : ℕ) (old : SwapHead) : Carries Quiet (swapGetHeadState E sector old) := by
  have hread : Carries Quiet (hdReadSectorRetry E sector 1) := hdReadSector_quiet 5 sector 1
  unfold swapGetHeadState
  exact .bind Quiet.trans hread fun _ => .pure Quiet.refl _

/-- Block `i` is one that a search does not go past: its first sector can be read and is not marked
invalid, and all its sectors can be written. -/
structure HeadHere (E : Env) (disk : ℕ → Sector) (H i : ℕ) : Prop where
  read : ∀ t, E.read t ⟨(H + 128 * i) % 2 ^ 32, 1, 5⟩ = .ok
  state : (headAt disk H (128 * i)).state ≠ .invalid
  write : E.Writable H i

theorem repairBackup_writes {j : ℕ} {head : SwapHead} {st : HeadState} {u : PUnit} (hj : j ≤ i)
    (h : (repairBackup E (H + 128 * j) head st).run s = some (u, s')) :
    Sends (HeadWrite H i) s s' ∧ s'.geom = s.geom := by
  unfold repairBackup at h
  split at h
  · obtain ⟨a, s₁, h1, h2⟩ := run_bind_iff.1 h
    obtain ⟨-, rfl⟩ := run_pure_iff.1 h2
    have hg : s'.geom = s.geom := (hdWriteSector_dev h1).geom
    rw [show H + 128 * j + swapHeadBackupOffest = H + (128 * j + 64) by simp only [swapHeadBackupOffest]; omega]
      at h1
    exact ⟨writeHead_sends (by omega) h1, hg⟩
  · obtain ⟨-, rfl⟩ := run_pure_iff.1 h
    exact ⟨.refl _, rfl⟩

/-- The search for a head goes no further either. -/
theorem initHeadLoop_writes : ∀ {n j : ℕ} {s s' : World} {a : Bool},
    (initHeadLoop E n (H + 128 * j)).run s = some (a, s') → HeadHere E s.disk H i → j ≤ i → i < j + n →
    i < maxSwapHeadBlockNum → s.geom = bootGeom g₀ R H →
    Sends (HeadWrite H i) s s' ∧ ∃ j' ≤ i, s'.geom = bootGeom g₀ R (H + 128 * j') := by
  intro n
  induction n with
  | zero => intro j s s' a _ _ _ _; omega
  | succ n ih =>
    intro j s s' a h hE hj hn hi hg
    unfold initHeadLoop at h
    rw [run_get_bind] at h
    obtain ⟨⟨st, head⟩, s₁, h1, h2⟩ := run_bind_iff.1 h
    have hq1 := swapGetHeadState_quiet _ _ _ _ _ h1
    have hg1 : s₁.geom = bootGeom g₀ R H := (swapGetHeadState_dev h1).1.geom.trans hg
    dsimp only at h2
    rw [run_modify_bind] at h2
    -- what the search sees at block `i`
    have hhere : j = i → st = (headAt s.disk H (128 * i)).state := by
      rintro rfl
      exact swapGetHeadState_ok h1 hE.read
    split at h2
    · rename_i hst
      have hlt : j < i := Nat.lt_of_le_of_ne hj fun he => hE.state ((hhere he).symm.trans hst)
      rw [show H + 128 * j + 128 = H + 128 * (j + 1) by omega] at h2
      obtain ⟨hs, hj'⟩ := ih h2 (by rw [show (s₁.setHead head).disk = s.disk from hq1.2]; exact hE) hlt
        (by omega) hi hg1
      exact ⟨Quiet.trans_sends (by exact hq1) hs, hj'⟩
    obtain ⟨⟨stBack, headBack⟩, s₂, h3, h4⟩ := run_bind_iff.1 h2
    have hq2 : Quiet s s₂ := Quiet.trans _ _ _ (by exact hq1) (swapGetHeadState_quiet _ _ _ _ _ h3)
    have hg2 : s₂.geom = bootGeom g₀ R H := (swapGetHeadState_dev h3).1.geom.trans hg1
    dsimp only at h4
    split at h4
    · rename_i hst
      have hlt : j < i := Nat.lt_of_le_of_ne hj fun he =>
        SwapHead.state_ne_fail _ ((hhere he).symm.trans hst.1)
      rw [show H + 128 * j + 128 = H + 128 * (j + 1) by omega] at h4
      obtain ⟨hs, hj'⟩ := ih h4 (by rw [hq2.2]; exact hE) hlt (by omega) hi hg2
      exact ⟨hq2.trans_sends hs, hj'⟩
    -- the search ends at block `j`
    have hplace : ∀ {t : World}, t.geom = bootGeom g₀ R H →
        { t with core.sectorHead := H + 128 * j }.geom = bootGeom g₀ R (H + 128 * j) :=
      fun ht => congrArg (fun g : Geom => ({ g with head := H + 128 * j } : Geom)) ht
    split at h4
    · obtain ⟨u, s₃, h5, h6⟩ := run_bind_iff.1 h4
      obtain ⟨hs, hg3⟩ := repairBackup_writes hj h5
      rw [run_modify_bind] at h6
      obtain ⟨-, rfl⟩ := run_pure_iff.1 h6
      exact ⟨hq2.trans_sends hs, j, hj, hplace (hg3.trans hg2)⟩
    split at h4
    · rw [run_modify_bind] at h4
      obtain ⟨ok, s₃, h5, h6⟩ := run_bind_iff.1 h4
      have hg3 : s₃.geom = bootGeom g₀ R H := (hdWriteSector_dev h5).geom.trans hg2
      have hs : Sends (HeadWrite H i) (s₂.setHead headBack) s₃ := writeHead_sends (by omega) h5
      rw [run_modify_bind] at h6
      obtain ⟨-, rfl⟩ := run_pure_iff.1 h6
      exact ⟨Quiet.trans_sends (by exact hq2) hs, j, hj, hplace hg3⟩
    obtain ⟨ok, s₃, h5, h6⟩ := run_bind_iff.1 h4
    unfold swapCreateNewHead at h5
    rw [run_modify_bind] at h5
    obtain ⟨hs, hj'⟩ := createHeadLoop_writes (j := 0) (R := R) hE.write h5 (Nat.zero_le _) (by omega) hg2
    have hall : Sends (HeadWrite H i) s s₃ := Quiet.trans_sends (by exact hq2) hs
    cases ok with
    | true =>
      obtain ⟨-, rfl⟩ := run_pure_iff.1 h6
      exact ⟨hall, hj'⟩
    | false =>
      obtain ⟨u, s₄, h7, h8⟩ := run_bind_iff.1 h6
      obtain ⟨-, rfl⟩ := run_pure_iff.1 h8
      obtain ⟨j', h9, h10⟩ := hj'
      exact ⟨hall.trans (deviceDeadInc_quiet _ _ _ h7).sends, j', h9,
        (deviceDeadInc_dev (A := fun _ => False) h7).geom.trans h10⟩

/-! ## A start -/

/-- What a start needs to find. -/
structure Startable (E : Env) (R : ℕ) (disk : ℕ → Sector) : Prop where
  /-- One of the 128 blocks before the table can hold the head. -/
  head : ∃ i < 128, HeadHere E disk (R + swapHeadOffest) i
  /-- What the loader accepts in the two tables is for the spare blocks. -/
  table : ∀ a, a = swapTableOffset ∨ a = swapTableBackupOffset → ∀ k < 32, ∀ j,
    let t := tableSlots (area disk R a k) j
    t.acceptable R = true → t.swapSec.toNat + 128 ≤ R + swapDataOffset + 128 * maxSwapBlock

theorem bootGeom_laid (hR : R + maxReservedSector ≤ 2 ^ 32) (hlog : g₀.logCap = none) {j : ℕ} (hj : j < 128) :
    (bootGeom g₀ R (R + swapHeadOffest + 128 * j)).Laid R := by
  refine ⟨⟨hR, rfl, rfl, ⟨?_, ?_⟩, fun cap hcap => absurd hcap (by simp [bootGeom, hlog])⟩, rfl, ?_⟩
  all_goals simp only [bootGeom, swapHeadOffest, swapTableOffset, maxSwapHeadBlockNum, sector8M]; omega

/-- What a start accepts stands in a slot of the disk. -/
theorem From.slot {disk : ℕ → Sector} {ts : List SwapTable} {a h : ℕ} (ha : TableStart (bootGeom g₀ R h) a)
    (hf : From (bootGeom g₀ R h) (fun a k => slotsOf (disk ((a + k) % 2 ^ 32))) a 32 ts)
    {t : SwapTable} (ht : t ∈ ts) :
    ∃ b, (b = swapTableOffset ∨ b = swapTableBackupOffset) ∧ ∃ k < 32, ∃ j,
      (tableSlots (area disk R b k) j).strip = t ∧
        (tableSlots (area disk R b k) j).Accepted (bootGeom g₀ R h) := by
  have hacc := hf.accepted t ht
  obtain ⟨k, hk, hmem⟩ := List.mem_flatMap.1 (hf.sublist.subset ht)
  obtain ⟨j, -, rfl⟩ := List.mem_map.1 hmem
  obtain ⟨b, hb, rfl⟩ := ha.offset
  have harea : disk ((R + b + k) % 2 ^ 32) = area disk R b k := by
    unfold area
    rw [Nat.add_assoc]
  rw [harea] at hacc ⊢
  exact ⟨b, hb, k, List.mem_range.1 hk, j, rfl, SwapTable.accepted_strip hacc⟩

/-- It is in place. -/
theorem Startable.inPlace {disk : ℕ → Sector} {ts : List SwapTable} {a h : ℕ} (hs : Startable E R disk)
    (ha : TableStart (bootGeom g₀ R h) a)
    (hf : From (bootGeom g₀ R h) (fun a k => slotsOf (disk ((a + k) % 2 ^ 32))) a 32 ts)
    {t : SwapTable} (ht : t ∈ ts) : t.InPlace (bootGeom g₀ R h) := by
  obtain ⟨b, hb, k, hk, j, rfl, hacc⟩ := hf.slot ha ht
  exact ⟨hacc.size, hacc.swap, hs.table b hb k hk j (acceptable_iff.2 hacc)⟩

theorem From.length_le {g : Geom} {disk : ℕ → Sector} {ts : List SwapTable} {a : ℕ}
    (hf : From g (fun a k => slotsOf (disk ((a + k) % 2 ^ 32))) a 32 ts) : ts.length ≤ 256 := by
  refine hf.sublist.length_le.trans ?_
  simp [List.length_flatMap, slotsOf]

/-- The head's commands are not for the table. -/
theorem HeadWrite.spares {c : Sent} {h a k : ℕ} (hc : HeadWrite (R + swapHeadOffest) i c) (hi : i < 128)
    (ha : TableStart (bootGeom g₀ R h) a) (hk : k < 32) : ¬ c.Has ((a + k) % 2 ^ 32) := by
  obtain ⟨-, hcount, m, hm, hlba⟩ := hc
  obtain ⟨b, hb, rfl⟩ := ha.offset
  rintro ⟨h1, h2⟩
  have hsame : (R + (b + k)) % 2 ^ 32 = (R + (swapHeadOffest + m)) % 2 ^ 32 := by
    rw [← Nat.add_assoc, ← Nat.add_assoc, ← hlba]
    omega
  have hback : swapTableBackupOffset = 2080768 := rfl
  have htab : swapTableOffset = 32768 := rfl
  have hhead : swapHeadOffest = 16384 := rfl
  have hoff := addr_inj (by simp only [maxReservedSector]; omega) (by simp only [maxReservedSector]; omega) hsame
  omega

/-- Up to the loading of the table. -/
theorem scsiSwapCoreInit_regions {ok : Bool} (hR : R + maxReservedSector ≤ 2 ^ 32) (hs : Startable E R s.disk)
    (hlog : s.geom.logCap = none)
    (h : (scsiSwapCoreInit E R).run s = some (ok, s')) :
    Sends (Sent.InRegion R) s s' ∧ (ok = true → s'.geom.Laid R ∧ s'.view.InPlace) := by
  obtain ⟨i, hi, hhere⟩ := hs.head
  unfold scsiSwapCoreInit at h
  rw [run_modify_bind] at h
  obtain ⟨found, s₁, h1, h2⟩ := run_bind_iff.1 h
  obtain ⟨hs1, j, hj, hg1⟩ := initHeadLoop_writes (R := R) (H := R + swapHeadOffest)
    (j := 0) h1 hhere (Nat.zero_le _)
    (by simp only [maxSwapHeadBlockNum]; omega) (by simp only [maxSwapHeadBlockNum]; omega)
    (show _ = bootGeom s.geom R (R + swapHeadOffest) from rfl)
  have hlaid := bootGeom_laid hR hlog (show j < 128 by omega)
  have hsend : Sends (Sent.InRegion R) s s₁ := Quiet.trans_sends (by exact ⟨rfl, rfl⟩)
    (hs1.mono fun c hc => hc.inRegion hi hR)
  cases found with
  | false =>
    obtain ⟨rfl, rfl⟩ := run_pure_iff.1 h2
    exact ⟨hsend, by simp⟩
  | true =>
    rw [if_pos rfl] at h2
    obtain ⟨loaded, s₂, h3, h4⟩ := run_bind_iff.1 h2
    have hkeep : ∀ a k, TableStart (bootGeom s.geom R (R + swapHeadOffest + 128 * j)) a → k < 32 →
        s₁.disk ((a + k) % 2 ^ 32) = s.disk ((a + k) % 2 ^ 32) := by
      intro a k ha hk
      obtain ⟨l, -, hf, hl⟩ := hs1
      exact (hf.keeps fun c hc => (hl c hc).spares hi ha hk).1
    obtain ⟨a, ts, ha, hload, hl, hf, -⟩ := initSwapInfo_rule (loading_rule (A := Sent.InRegion R) s.disk s
      fun c hc => hc.2.inRegion hlaid) h3 fun a ha =>
        ⟨hg1, ha, hsend, fun k hk => Or.inl (hkeep a k ha hk)⟩
    have hplace : s₂.view.InPlace := by
      have hg2 : s₂.view.geom = _ := hload.geom
      refine ⟨?_, hl.num, hl.length.trans_le hf.length_le, hl.old, fun p hp => ?_⟩
      · rw [hg2]
        simp only [bootGeom, swapDataOffset, sector8M, maxSwapBlock, maxReservedSector] at hR ⊢
        omega
      · rw [hg2]
        exact hs.inPlace ha hf (hl.table hp)
    cases loaded with
    | false =>
      unfold swapInfoDestroy at h4
      rw [if_neg (by simp), run_modify_bind] at h4
      obtain ⟨rfl, rfl⟩ := run_pure_iff.1 h4
      exact ⟨hload.sends, by simp⟩
    | true =>
      rw [if_pos rfl, run_modify_bind] at h4
      obtain ⟨rfl, rfl⟩ := run_pure_iff.1 h4
      refine ⟨hload.sends, fun _ => ⟨?_, hplace⟩⟩
      exact hload.geom ▸ hlaid

theorem scsiSwapLogInit_quiet (head data : ℕ) : Carries Quiet (scsiSwapLogInit E head data) := by
  have hread : ∀ sector n, Carries Quiet (hdReadSectorNoRetry E sector n) := hdReadSector_quiet 0
  have hload : ∀ r, Carries Quiet (scsiSwapLogLoad E r) := by
    intro r
    unfold scsiSwapLogLoad
    refine .bind Quiet.trans quiet_get fun s => .bind Quiet.trans (hread _ _) fun a => ?_
    split
    split
    · refine .bind Quiet.trans (quiet_set fun _ => ⟨rfl, rfl⟩) fun _ => ?_
      split
      · refine .bind Quiet.trans (hread _ _) fun b => ?_
        split
        exact .bind Quiet.trans (quiet_set fun _ => ⟨rfl, rfl⟩) fun _ => .pure Quiet.refl _
      · exact .pure Quiet.refl _
    · exact .pure Quiet.refl _
  unfold scsiSwapLogInit
  refine .bind Quiet.trans kmalloc_quiet fun a => .bind Quiet.trans ?_ fun b => ?_
  · exact .ite kmalloc_quiet (.pure Quiet.refl _)
  · refine .ite (.bind Quiet.trans (quiet_set fun _ => ⟨rfl, rfl⟩) fun _ =>
      .bind Quiet.trans (hload _) fun ok => ?_)
      (.bind Quiet.trans (quiet_set fun _ => ⟨rfl, rfl⟩) fun _ => .pure Quiet.refl _)
    exact .ite (.bind Quiet.trans (quiet_set fun _ => ⟨rfl, rfl⟩) fun _ => .pure Quiet.refl _)
      (.pure Quiet.refl _)

/-- **A start keeps to the regions**, and leaves a driver that is set up to do so. -/
theorem scsiSwapInit_regions {ok : Bool} (hR : R + maxReservedSector ≤ 2 ^ 32) (hs : Startable E R s.disk)
    (h : (scsiSwapInit E R).run s = some (ok, s')) :
    Sends (Sent.InRegion R) s s' ∧ (ok = true → s'.geom.Laid R ∧ s'.view.InPlace) := by
  unfold scsiSwapInit at h
  obtain ⟨mem, s₁, h1, h2⟩ := run_bind_iff.1 h
  have hq := kmalloc_quiet _ _ _ h1
  cases mem with
  | false =>
    obtain ⟨rfl, rfl⟩ := run_pure_iff.1 h2
    exact ⟨hq.sends, by simp⟩
  | true =>
    rw [if_pos rfl, run_modify_bind] at h2
    obtain ⟨up, s₂, h3, h4⟩ := run_bind_iff.1 h2
    obtain ⟨hs2, hup⟩ := scsiSwapCoreInit_regions hR (by
      rw [show s₁.fresh.disk = s.disk from hq.2]
      exact hs) rfl h3
    have hsend : Sends (Sent.InRegion R) s s₂ := Quiet.trans_sends (by exact hq) hs2
    cases up with
    | false =>
      obtain ⟨rfl, rfl⟩ := run_pure_iff.1 h4
      exact ⟨hsend, by simp⟩
    | true =>
      obtain ⟨hlaid, hplace⟩ := hup rfl
      obtain ⟨x, s₃, h5, h6⟩ := run_bind_iff.1 h4
      obtain ⟨-, rfl⟩ := run_pure_iff.1 h6
      obtain ⟨-, g, hv, hg, hlog⟩ := scsiSwapLogInit_view h5
      have hgeom : s'.geom = g := congrArg View.geom hv
      have hres : g.reserve = s₂.geom.reserve := by rw [hg]
      refine ⟨hsend.trans (scsiSwapLogInit_quiet _ _ _ _ _ h5).sends, fun _ => ⟨?_, ?_⟩⟩
      · rw [hgeom]
        rw [hlaid.reserve] at hres
        refine ⟨⟨by rw [hres]; exact hR, ?_, ?_, ?_, ?_⟩, hres, ?_⟩
        · rw [hres, hg, ← hlaid.reserve]; exact hlaid.ok.table
        · rw [hres, hg, ← hlaid.reserve]; exact hlaid.ok.data
        · rw [hres, hg, ← hlaid.reserve]; exact hlaid.ok.head
        · rw [hres]; exact hlog
        · rw [hg]; exact hlaid.head
      · have hdata : g.data = s₂.geom.data := by rw [hg]
        rw [hv]
        refine ⟨by rw [hdata]; exact hplace.size, hplace.num, hplace.room, hplace.old, fun p hp => ?_⟩
        have hin := hplace.info p hp
        exact ⟨hin.size, by rw [hdata]; exact hin.lower, by rw [hdata]; exact hin.upper⟩

/-! ## Runs -/

/-- What a call needs: a start, that it finds a place for the head and no stray entry. -/
def Call.Allowed (E : Env) (R : ℕ) (d : Driver) : Call → Prop
  | .start => Startable E R d.world.disk
  | .request _ => True
  | .push .. => True

/-- Everyone kept to their region, and a driver that is up will. -/
structure Driver.Regular (R : ℕ) (w : World) (d : Driver) : Prop where
  sends : Sends (Sent.InRegion R) w d.world
  up : d.up = true → d.world.geom.Laid R ∧ d.world.view.InPlace

theorem Driver.Regular.call {w : World} {d d' : Driver} {c : Call} {u : Unit}
    (hR : R + maxReservedSector ≤ 2 ^ 32)
    (hd : d.Regular R w) (hc : c.Allowed E R d) (h : (c.serve E R).run d = some (u, d')) : d'.Regular R w := by
  cases c with
  | start =>
    obtain ⟨r, hr, he⟩ := Option.map_eq_some_iff.1 h
    obtain ⟨hs, hup⟩ := scsiSwapInit_regions hR hc hr
    rw [← (Prod.mk.inj he).2]
    exact ⟨hd.sends.trans hs, hup⟩
  | request o =>
    cases hup : d.up with
    | false =>
      have h' : (if d.up then _ else some ((), d)) = some (u, d') := h
      rw [hup, if_neg (by simp)] at h'
      rw [← (Prod.mk.inj (Option.some.inj h')).2]
      exact hd
    | true =>
      have h' : (if d.up then ((o.serve E).run d.world).map _ else some ((), d)) = some (u, d') := h
      rw [hup, if_pos rfl] at h'
      obtain ⟨r, hr, he⟩ := Option.map_eq_some_iff.1 h'
      obtain ⟨hlaid, hplace⟩ := hd.up hup
      obtain ⟨hplace', hg, hs⟩ := serve_orderly hr hplace
      rw [← (Prod.mk.inj he).2]
      exact ⟨hd.sends.trans (hs.mono fun c hc => hc.inRegion hlaid), fun _ => ⟨hg ▸ hlaid, hplace'⟩⟩
  | push type result src dst count =>
    cases hup : d.up with
    | false =>
      have h' : (if d.up then _ else some ((), d)) = some (u, d') := h
      rw [hup, if_neg (by simp)] at h'
      rw [← (Prod.mk.inj (Option.some.inj h')).2]
      exact hd
    | true =>
      have h' : (if d.up then ((scsiSwapLogPush E type result src dst count).run d.world).map _
          else some ((), d)) =
        some (u, d') := h
      rw [hup, if_pos rfl] at h'
      obtain ⟨r, hr, he⟩ := Option.map_eq_some_iff.1 h'
      obtain ⟨hlaid, hplace⟩ := hd.up hup
      have hdev := scsiSwapLogPush_dev hr
      have hs := scsiSwapLogPush_sends hr
      rw [← (Prod.mk.inj he).2]
      refine ⟨hd.sends.trans (hs.mono fun c hc => hc.2.inRegion hlaid), fun _ => ⟨?_, ?_⟩⟩
      · exact hdev.geom ▸ hlaid
      · exact hdev.view ▸ hplace

/-- **Everyone keeps to their region**, in every run of starts, requests and log entries, as long as
each start finds a block for the head before the table, and no entry for sectors outside the spare
blocks. -/
theorem regions_kept {w : World} {d : Driver} (hR : R + maxReservedSector ≤ 2 ^ 32)
    (h : Reach (Call.serve E R) (fun d c => c.Allowed E R d) ⟨false, w⟩ d) :
    Sends (Sent.InRegion R) w d.world := by
  have hinv : d.Regular R w := h.inv (I := Driver.Regular R w) ⟨.refl _, by simp⟩
    fun _ _ _ _ hd hc hs => hd.call hR hc hs
  exact hinv.sends

instance (R : ℕ) (w : Writer) (x : ℕ) : Decidable (Region R w x) := by
  cases w <;> unfold Region <;> infer_instance

/-- A start on a blank disk. -/
theorem startable_blank {refuses : Cmd → (ℕ → Sector) → Bool}
    (hE : ∀ c buf, 1000 ≤ c.lba → refuses c buf = false) :
    Startable (Env.refusing refuses) 1000 World.blank.disk := by
  refine ⟨⟨0, by decide, fun _ => rfl, by decide +kernel, fun t k buf hk => ?_⟩, ?_⟩
  · show (if refuses _ buf then IoResult.fail (fun _ => none) false else IoResult.ok) = IoResult.ok
    rw [hE _ _ (by simp only [swapHeadOffest, sector8M]; omega)]
    rfl
  · intro a _ k _ j t hacc
    have hzero : tableSlots (area World.blank.disk 1000 a k) j = SwapTable.zero := tableSlots_zero j
    rw [show t = SwapTable.zero from hzero] at hacc
    exact absurd (of_decide_eq_true hacc).1 (by decide)

/-- A start and a write to a bad sector, on a blank disk: head, spare block, log and table are all
written. -/
theorem regions_kept_blank :
    let E := Env.refusing fun c _ => c.lba < 1000
    ∃ d, Reach (Call.serve E 1000) (fun d c => c.Allowed E 1000 d) ⟨false, World.blank⟩ d ∧
      (∀ w, w ≠ .user → ∃ c ∈ d.world.sent, c.writer = w) ∧ Sends (Sent.InRegion 1000) World.blank d.world := by
  intro E
  have hrun : (((do
      Call.serve E 1000 .start
      Call.serve E 1000 (.request ⟨true, 0, 1, 2 ^ 64 - 1, fun _ => zeroSector⟩)
      let d ← get
      return decide (∀ w ∈ [Writer.head, .table, .block, .log], ∃ c ∈ d.world.sent, c.writer = w) :
        StateT Driver Option Bool)).run ⟨false, World.blank⟩).map Prod.fst = some true := by decide +kernel
  obtain ⟨d, h⟩ := run_of_result hrun
  obtain ⟨⟨⟩, d₁, h1, h2⟩ := run_bind_iff.1 h
  obtain ⟨⟨⟩, d₂, h3, h4⟩ := run_bind_iff.1 h2
  rw [run_get_bind] at h4
  obtain ⟨hd, rfl⟩ := run_pure_iff.1 h4
  have hstart : Startable E 1000 World.blank.disk := startable_blank fun c _ hc => by simpa using hc
  have hreach : Reach (Call.serve E 1000) (fun d c => c.Allowed E 1000 d) ⟨false, World.blank⟩ d :=
    .step (o := .request _) (.step (o := .start) .start hstart h1) trivial h3
  refine ⟨d, hreach, fun w hw => of_decide_eq_true hd.symm w ?_, regions_kept (by decide) hreach⟩
  cases w <;> simp at hw ⊢

/-- A run with a command outside its writer's region. -/
theorem leaves_region {R : ℕ} {w : World} (cs : List Call) (hw : w.sent = [])
    (h : ((do
      let _ ← runAll (Call.serve E R) cs
      let d ← get
      return decide (∃ c ∈ d.world.sent, 0 < c.count ∧ ¬ Region R c.writer c.lba) :
        StateT Driver Option Bool).run ⟨false, w⟩).map Prod.fst = some true) :
    ∃ d, Reach (Call.serve E R) (fun _ _ => True) ⟨false, w⟩ d ∧ ¬ Sends (Sent.InRegion R) w d.world := by
  obtain ⟨d, h⟩ := run_of_result h
  obtain ⟨us, d₁, h1, h2⟩ := run_bind_iff.1 h
  rw [run_get_bind] at h2
  obtain ⟨hd, rfl⟩ := run_pure_iff.1 h2
  obtain ⟨c, hc, hcount, hreg⟩ := of_decide_eq_true hd.symm
  refine ⟨d, Reach.runAll .start (fun _ _ _ => trivial) h1, ?_⟩
  rintro ⟨l, hl, -, hin⟩
  rw [hl, hw, List.append_nil] at hc
  exact hreg (hin c hc _ ⟨le_rfl, by omega⟩)

/-- A blank disk with one entry in the table, whose spare block is in the log's region. -/
def strayWorld : World :=
  let t : SwapTable :=
    { SwapTable.zero with
      secSize := 128, swapSec := .ofNat 64 (1000 + swapLogHeadOffset), checksum := 1099595573 }
  { World.blank with
    disk := fun x => if x = 1000 + swapTableOffset then putTable zeroSector 0 t else zeroSector }

/-- **The regions are left.** If no block before the table can be written, the head goes into the
table. With an entry for sectors of the log, a request writes there. In a reserve that starts at
`2 ^ 32`, the head is written below it. -/
theorem regions_left :
    (∃ d, Reach (Call.serve (Env.refusing fun c _ => 1000 ≤ c.lba ∧ c.lba < 1000 + swapTableOffset) 1000)
      (fun _ _ => True)
      ⟨false, World.blank⟩ d ∧ ¬ Sends (Sent.InRegion 1000) World.blank d.world) ∧
    (∃ d, Reach (Call.serve (Env.refusing fun _ _ => false) 1000) (fun _ _ => True) ⟨false, strayWorld⟩ d ∧
      ¬ Sends (Sent.InRegion 1000) strayWorld d.world) ∧
    ∃ d, Reach (Call.serve (Env.refusing fun _ _ => false) (2 ^ 32)) (fun _ _ => True) ⟨false, World.blank⟩ d ∧
      ¬ Sends (Sent.InRegion (2 ^ 32)) World.blank d.world := by
  refine ⟨leaves_region [.start] rfl ?_,
    leaves_region [.start, .request ⟨true, 0, 1, 2 ^ 64 - 1, fun _ => zeroSector⟩] rfl ?_,
    leaves_region [.start] rfl ?_⟩ <;> decide +kernel

end ScsiSwap
