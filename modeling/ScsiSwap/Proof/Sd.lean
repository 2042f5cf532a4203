import ScsiSwap.Proof.Segments
import ScsiSwap.Spec.Sd

/-!
# The disk driver and the reserve

Two things `core.c` takes for granted about `sd.c`:

* that `hd_read_sector` and `hd_write_sector` address the same blocks as ordinary requests:
  true for 512-byte blocks below 2^32 (`private_command_iff`);
* that the reserve it was given stays out of the capacity of the disk: true as long as the device
  keeps reporting the same capacity (`reserve_kept_iff`).
-/

namespace ScsiSwap

open ByteCodec

variable {q : SdAttrs} {a : RcAnswers} {d e : SdDisk}

/-! ## Command blocks -/

theorem sectorFromScmd_cdb6 (w : Bool) {block count : ℕ} (hb : block < 2 ^ 21) (hc : count < 2 ^ 8) :
    sectorFromScmd (cdb6 (if w then opWrite6 else opRead6) block count) = (block, count) := by
  cases w <;>
  · simp only [sectorFromScmd, cdb6, Matrix.cons_val, BitVec.toNat_ofNat, Nat.shiftRight_eq_div_pow,
      opWrite6, opRead6]
    norm_num
    omega

theorem sectorFromScmd_cdb10 (w : Bool) (fua : ℕ) {block count : ℕ} (hb : block < 2 ^ 32) (hc : count < 2 ^ 16) :
    sectorFromScmd (cdb10 (if w then opWrite10 else opRead10) fua block count) = (block, count) := by
  cases w <;>
  · simp only [sectorFromScmd, cdb10, Matrix.cons_val, BitVec.toNat_ofNat, Nat.shiftRight_eq_div_pow, opWrite6,
      opRead6, opWrite10, opRead10]
    norm_num
    omega

theorem sectorFromScmd_cdb16 (w : Bool) (fua : ℕ) {block count : ℕ} (hb : block < 2 ^ 64) (hc : count < 2 ^ 32) :
    sectorFromScmd (cdb16 (if w then opWrite16 else opRead16) fua block count) = (block, count) := by
  cases w <;>
  · simp only [sectorFromScmd, cdb16, Matrix.cons_val, BitVec.toNat_ofNat, Nat.shiftRight_eq_div_pow, opWrite6,
      opRead6, opWrite10, opRead10, opWrite12, opRead12, opWrite16, opRead16]
    norm_num
    omega

theorem sectorFromScmd_hdCmnd (w : Bool) (sector secNum : ℕ) :
    sectorFromScmd (hdCmnd (if w then opWrite10 else opRead10) sector secNum) =
      (sector % 2 ^ 32, secNum % 2 ^ 16) := by
  have h1 := cdbLba_hdCdb (if w then opWrite10 else opRead10) sector secNum
  have h2 := cdbCount_hdCdb (if w then opWrite10 else opRead10) sector secNum
  cases w <;>
  · rw [← h1, ← h2]
    rfl

/-! ## What `sd_read_capacity` leaves -/

theorem checkSize_size (size : ℤ) (c : ℕ) :
    (checkSize size c).1 = 512 ∨ (checkSize size c).1 = 1024 ∨ (checkSize size c).1 = 2048 ∨
      (checkSize size c).1 = 4096 ∨ (checkSize size c).1 = 256 := by
  unfold checkSize supportedSize
  split_ifs <;> simp

theorem u64_le (n : ℕ) : u64 n ≤ n := by unfold u64; omega

theorem rescale_le {sectorSize c : ℕ}
    (h : sectorSize = 512 ∨ sectorSize = 1024 ∨ sectorSize = 2048 ∨ sectorSize = 4096) :
    rescale sectorSize c ≤ c * (sectorSize / 512) := by
  rcases h with rfl | rfl | rfl | rfl
  · exact (Nat.mul_one c).ge
  · exact u64_le (c * 2)
  · exact u64_le (c * 4)
  · exact u64_le (c * 8)

theorem reserveForSwap_le (first : Bool) (old c : ℕ) : reserveForSwap q first old c ≤ c := by
  unfold reserveForSwap
  split_ifs <;> omega

/-- The commands a scanned disk is given can address all of it. -/
structure SdDisk.Scanned (d : SdDisk) : Prop where
  size : d.sectorSize = 512 ∨ d.sectorSize = 1024 ∨ d.sectorSize = 2048 ∨ d.sectorSize = 4096 ∨ d.sectorSize = 256
  short : d.use16ForRw = false → d.sectorSize ≠ 256 → d.gdCapacity ≤ 0xffffffff * (d.sectorSize / 512)

theorem sdReadCapacity_of_read {size : ℤ} (h : (sdReadSize q a e).1 = some size) :
    sdReadCapacity q a e = gotData q e.capacity size (sdReadSize q a e).2 := by
  unfold sdReadCapacity
  rw [show sdReadSize q a e = (some size, (sdReadSize q a e).2) by rw [← h]]

theorem scanned_of_read (h : (sdReadSize q a e).1.isSome = true) : (sdRevalidateDisk q a e).Scanned := by
  obtain ⟨size, hsize⟩ := Option.isSome_iff_exists.1 h
  unfold sdRevalidateDisk
  rw [sdReadCapacity_of_read hsize]
  generalize (sdReadSize q a e).2 = e'
  have hs := checkSize_size size e'.capacity
  refine ⟨hs, ?_⟩
  intro h16 h256
  have hblocks : ¬ 0xffffffff < (checkSize size e'.capacity).2 := of_decide_eq_false h16
  have h4 : (checkSize size e'.capacity).1 ≠ 256 := h256
  refine (reserveForSwap_le ..).trans ((rescale_le (by tauto)).trans (Nat.mul_le_mul_right _ ?_))
  exact Nat.le_of_not_lt hblocks

/-! ## `sd_prep_fn` -/

/-- The last-sector rule of `sd_prep_fn` does not shorten the request. -/
def SdDisk.Whole (q : SdAttrs) (d : SdDisk) (rq : FsRequest) : Prop :=
  q.lastSectorBug = false ∨ rq.pos.toNat + rq.sectors.toNat ≤ d.threshold q ∨
    (d.threshold q ≤ rq.pos.toNat ∧ rq.sectors.toNat = 1)

variable {rq : FsRequest} {c : Cdb} {block count : ℕ}

/-- What is left of the request when `sd_prep_fn` builds the command. -/
theorem sdPrepFn_range (h : sdPrepFn q d rq = some c) :
    ∃ block count, deviceRange d.sectorSize rq (thisCount q d rq) = some (block, count) ∧
      rwCommand q d rq block count = some c := by
  unfold sdPrepFn at h
  split at h
  · exact absurd h (by simp)
  split at h
  · exact absurd h (by simp)
  split at h
  · exact absurd h (by simp)
  rename_i block count hr
  split at h
  · exact absurd h (by simp)
  exact ⟨block, count, hr, h⟩

/-- The command has the range it was built for. -/
theorem rwCommand_range (h : rwCommand q d rq block count = some c) (hb : block < 2 ^ 64)
    (h10 : d.use16ForRw = false → block < 2 ^ 32) (hc : count < 2 ^ 16) : sectorFromScmd c = (block, count) := by
  unfold rwCommand at h
  dsimp only at h
  split at h
  · obtain rfl := Option.some.inj h
    exact sectorFromScmd_cdb16 _ _ hb (by omega)
  rename_i h16
  split at h
  · obtain rfl := Option.some.inj h
    rw [Nat.min_eq_left (by omega)]
    exact sectorFromScmd_cdb10 _ _ (h10 (by simpa using h16)) hc
  rename_i hshort
  split at h
  · exact absurd h (by simp)
  obtain rfl := Option.some.inj h
  simp only [not_or] at hshort
  exact sectorFromScmd_cdb6 _ (by omega) (by omega)

/-- A request is never lengthened. -/
theorem thisCount_le (h : d.sectorSize / 512 ≤ rq.sectors.toNat) (hc : rq.sectors.toNat ≤ 128) :
    thisCount q d rq ≤ rq.sectors.toNat := by
  have hp := rq.pos.isLt
  have ht : d.threshold q < 2 ^ 64 := by unfold SdDisk.threshold u64; omega
  unfold thisCount
  split
  · rename_i hb
    split
    · rename_i hlt
      have := hb.2
      unfold u64 at this
      unfold u32
      omega
    · exact h
  · exact le_rfl

theorem thisCount_eq_iff (hd : d.sectorSize = 512) (hp : rq.pos.toNat < 2 ^ 32) (hc : rq.sectors.toNat ≤ 128) :
    thisCount q d rq = rq.sectors.toNat ↔ d.Whole q rq := by
  have ht : d.threshold q < 2 ^ 64 := by unfold SdDisk.threshold u64; omega
  have hsum : u64 (rq.pos.toNat + rq.sectors.toNat) = rq.pos.toNat + rq.sectors.toNat := by unfold u64; omega
  unfold thisCount SdDisk.Whole
  rw [hsum, hd]
  cases q.lastSectorBug
  · simp
  · simp only [true_and, Bool.true_eq_false, false_or]
    split
    · split
      · unfold u32; omega
      · omega
    · omega

/-- In blocks of more than 512 bytes the command has another length than the request. -/
theorem inBlocks_ne {k : ℕ} (hk : k = 1 ∨ k = 2 ∨ k = 3) (hs : d.sectorSize = 512 * 2 ^ k) (hscan : d.Scanned)
    (hpos : rq.pos.toNat < d.gdCapacity) (hone : 1 ≤ rq.sectors.toNat) (hc : rq.sectors.toNat ≤ 128)
    (hr : inBlocks k rq (thisCount q d rq) = some (block, count)) (hcmd : rwCommand q d rq block count = some c) :
    (sectorFromScmd c).2 ≠ rq.sectors.toNat % 2 ^ 16 := by
  have hp := rq.pos.isLt
  have hcap := hscan.short
  unfold inBlocks at hr
  split at hr
  · exact absurd hr (by simp)
  rename_i hal
  obtain ⟨rfl, rfl⟩ := Prod.mk.inj (Option.some.inj hr)
  rw [hs] at hcap
  have hlong : d.sectorSize / 512 ≤ rq.sectors.toNat := by
    rw [hs]
    rcases hk with rfl | rfl | rfl <;> omega
  have hle := thisCount_le (q := q) hlong hc
  simp only [Nat.shiftRight_eq_div_pow] at hcmd
  rw [rwCommand_range hcmd ?_ ?_ ?_]
  · rcases hk with rfl | rfl | rfl <;> dsimp only <;> omega
  · exact (Nat.div_le_self ..).trans_lt hp
  · intro h16
    have := hcap h16
    rcases hk with rfl | rfl | rfl <;> omega
  · exact ((Nat.div_le_self ..).trans hle).trans_lt (by omega)

/-- **`hd_read_sector` and `hd_write_sector` address the blocks `sd_prep_fn` addresses**, for a
request it accepts on a disk whose capacity was read, exactly if the blocks have 512 bytes, the
sector number fits 32 bits and the last-sector rule does not shorten the request. -/
theorem private_command_iff {q : SdAttrs} {a : RcAnswers} {e d : SdDisk} {rq : FsRequest} {c : Cdb}
    (hread : (sdReadSize q a e).1.isSome = true) (hd : d = sdRevalidateDisk q a e) (hsize : d.sectorSize ≠ 256)
    (hpos : rq.pos.toNat < d.gdCapacity) (hone : 1 ≤ rq.sectors.toNat) (hc : rq.sectors.toNat ≤ 128)
    (hprep : sdPrepFn q d rq = some c) :
    sectorFromScmd (hdCmnd (if rq.isWrite then opWrite10 else opRead10) rq.pos.toNat rq.sectors.toNat) =
        sectorFromScmd c ↔
      d.sectorSize = 512 ∧ rq.pos.toNat < 2 ^ 32 ∧ d.Whole q rq := by
  have hscan : d.Scanned := hd ▸ scanned_of_read hread
  clear hd
  obtain ⟨block, count, hr, hcmd⟩ := sdPrepFn_range hprep
  rw [sectorFromScmd_hdCmnd]
  -- in larger blocks the two never agree
  have hlarge : ∀ k, k = 1 ∨ k = 2 ∨ k = 3 → d.sectorSize = 512 * 2 ^ k →
      inBlocks k rq (thisCount q d rq) = some (block, count) →
      ((rq.pos.toNat % 2 ^ 32, rq.sectors.toNat % 2 ^ 16) = sectorFromScmd c ↔
        d.sectorSize = 512 ∧ rq.pos.toNat < 2 ^ 32 ∧ d.Whole q rq) := by
    intro k hk hs hr
    refine iff_of_false ?_ ?_
    · intro h
      exact inBlocks_ne hk hs hscan hpos hone hc hr hcmd (congrArg Prod.snd h).symm
    · rintro ⟨h512, -, -⟩
      rw [hs] at h512
      rcases hk with rfl | rfl | rfl <;> simp at h512
  rcases hscan.size with hs | hs | hs | hs | hs
  · rw [hs] at hr
    obtain ⟨rfl, rfl⟩ := Prod.mk.inj (Option.some.inj hr)
    have hle : thisCount q d rq ≤ rq.sectors.toNat := thisCount_le (by rw [hs]; exact hone) hc
    have hcap := hscan.short
    rw [hs] at hcap
    rw [rwCommand_range hcmd rq.pos.isLt (fun h16 => by have := hcap h16 (by decide); omega) (by omega),
      Prod.mk.injEq]
    constructor
    · rintro ⟨h1, h2⟩
      have hlt : rq.pos.toNat < 2 ^ 32 := by omega
      exact ⟨hs, hlt, (thisCount_eq_iff hs hlt hc).1 (by omega)⟩
    · rintro ⟨-, hlt, hw⟩
      rw [(thisCount_eq_iff hs hlt hc).2 hw]
      omega
  · exact hlarge 1 (by simp) hs (by simpa [deviceRange, hs] using hr)
  · exact hlarge 2 (by simp) hs (by simpa [deviceRange, hs] using hr)
  · exact hlarge 3 (by simp) hs (by simpa [deviceRange, hs] using hr)
  · exact absurd hs hsize

/-- An ordinary disk that can swap. -/
def SdAttrs.plain : SdAttrs where
  canSwap := true
  tryRc16First := false
  noReadCapacity16 := false
  removable := false
  fixCapacity := false
  guessCapacity := false
  online := true
  changed := false
  writeable := true
  lastSectorBug := false
  lastBuggySectors := 8
  use10ForRw := true
  protection := false
  hostDif := false

/-- The answers of a disk with `n` blocks. -/
def RcAnswers.disk (n sectorSize : ℕ) : RcAnswers := ⟨.failed, .ok (.ofNat 32 (n - 1)) (.ofNat 32 sectorSize)⟩

/-- A write of 4 sectors on a disk with 512-byte blocks. -/
theorem private_command_short :
    let d := sdRevalidateDisk .plain (.disk 4000000 512) .probed
    ∃ c, sdPrepFn .plain d ⟨true, 100, 4, false⟩ = some c ∧
      sectorFromScmd (hdCmnd opWrite10 100 4) = sectorFromScmd c := by
  intro d
  have hsome : (sdPrepFn .plain d ⟨true, 100, 4, false⟩).isSome = true := by decide +kernel
  obtain ⟨c, hc⟩ := Option.isSome_iff_exists.1 hsome
  refine ⟨c, hc, ?_⟩
  refine (private_command_iff (a := .disk 4000000 512) (e := .probed) (by decide +kernel) rfl (by decide +kernel)
    (by decide +kernel) (by decide) (by decide) hc).2 ⟨by decide +kernel, by decide, Or.inl rfl⟩

/-- **On a disk with 4096-byte blocks** an ordinary read of sectors 8 to 15 is one for block 1. The
command `hd_read_sector` builds for them reads blocks 8 to 15. -/
theorem private_command_unscaled :
    let d := sdRevalidateDisk .plain (.disk 4000000 4096) .probed
    (sdPrepFn .plain d ⟨false, 8, 8, false⟩).map sectorFromScmd = some (1, 1) ∧
      sectorFromScmd (hdCmnd opRead10 8 8) = (8, 8) := by
  decide +kernel

/-! ## Capacity and reserve -/

/-- The capacity a device reports, in 512-byte sectors, if the answers count. -/
def rawCapacity (q : SdAttrs) (a : RcAnswers) : Option ℕ :=
  match sdReadSize q a .probed with
  | (some size, d) => some (rescale (checkSize size d.capacity).1 (checkSize size d.capacity).2)
  | (none, _) => none

theorem readCapacity16_indep {a : Rc16Answer} {n : ℤ} {d' : SdDisk}
    (h : readCapacity16 q a d = (n, d')) (e : SdDisk) :
    ∃ e', readCapacity16 q a e = (n, e') ∧
      (n = -eOVERFLOW ∨ 0 ≤ n → e' = { e with capacity := d'.capacity }) := by
  unfold readCapacity16 at h ⊢
  split at h
  · obtain ⟨rfl, rfl⟩ := Prod.mk.inj h
    exact ⟨_, if_pos ‹_›, fun h => absurd h (by decide)⟩
  rw [if_neg ‹_›]
  cases a <;> obtain ⟨rfl, rfl⟩ := Prod.mk.inj h <;> refine ⟨_, rfl, ?_⟩
  case ok => intro _; rfl
  all_goals exact fun h => absurd h (by decide)

theorem readCapacity10_indep {a : Rc10Answer} {n : ℤ} {d' : SdDisk}
    (h : readCapacity10 q a d = (n, d')) (e : SdDisk) :
    ∃ e', readCapacity10 q a e = (n, e') ∧
      (n = -eOVERFLOW ∨ 0 ≤ n → e' = { e with capacity := d'.capacity }) := by
  unfold readCapacity10 at h ⊢
  cases a with
  | ok lba size =>
    dsimp only at h ⊢
    split at h <;> obtain ⟨rfl, rfl⟩ := Prod.mk.inj h
    · exact ⟨_, if_pos ‹_›, fun _ => rfl⟩
    · exact ⟨_, if_neg ‹_›, fun _ => rfl⟩
  | noMedia =>
    obtain ⟨rfl, rfl⟩ := Prod.mk.inj h
    exact ⟨_, rfl, fun h => absurd h (by decide)⟩
  | failed =>
    obtain ⟨rfl, rfl⟩ := Prod.mk.inj h
    exact ⟨_, rfl, fun h => absurd h (by decide)⟩

/-- Both commands touch the capacity only. -/
theorem readCapacity16_frame (q : SdAttrs) (a : Rc16Answer) (d : SdDisk) :
    (readCapacity16 q a d).2 = { d with capacity := (readCapacity16 q a d).2.capacity } := by
  unfold readCapacity16 setMediaNotPresent
  split
  · rfl
  · cases a <;> dsimp only
    split <;> rfl

/-- Answers that count do so whatever was known before. -/
theorem sdReadSize_indep {size : ℤ} {d' : SdDisk} (h : sdReadSize q a d = (some size, d')) (e : SdDisk) :
    sdReadSize q a e = (some size, { e with capacity := d'.capacity }) := by
  unfold sdReadSize at h ⊢
  split at h
  · rename_i hfirst
    rcases h16 : readCapacity16 q a.rc16 d with ⟨n, d₁⟩
    obtain ⟨e₁, g16, hcap⟩ := readCapacity16_indep h16 e
    have hframe := readCapacity16_frame q a.rc16 e
    rw [g16] at hframe
    rw [h16] at h
    rw [if_pos hfirst, g16]
    dsimp only at h hframe ⊢
    split at h
    · rename_i hover
      obtain ⟨h1, rfl⟩ := Prod.mk.inj h
      rw [if_pos hover, hcap (Or.inl hover), h1]
    rename_i hover
    rw [if_neg hover]
    split at h
    · exact absurd (congrArg Prod.fst h) (by simp)
    rename_i hnodev
    rw [if_neg hnodev]
    split at h
    · -- the 10-byte command is tried
      rename_i hneg
      rcases h10 : readCapacity10 q a.rc10 d₁ with ⟨m, d₂⟩
      obtain ⟨e₂, g10, hcap10⟩ := readCapacity10_indep h10 e₁
      rw [h10] at h
      rw [if_pos hneg, g10]
      dsimp only at h ⊢
      split at h
      · exact absurd (congrArg Prod.fst h) (by simp)
      rename_i hm
      obtain ⟨h1, rfl⟩ := Prod.mk.inj h
      rw [if_neg hm, hcap10 (Or.inr (by omega)), hframe, h1]
    · rename_i hneg
      obtain ⟨h1, rfl⟩ := Prod.mk.inj h
      rw [if_neg hneg, hcap (Or.inr (by omega)), h1]
  · rename_i hfirst
    rcases h10 : readCapacity10 q a.rc10 d with ⟨n, d₁⟩
    obtain ⟨e₁, g10, hcap⟩ := readCapacity10_indep h10 e
    rw [h10] at h
    rw [if_neg hfirst, g10]
    dsimp only at h ⊢
    split at h
    · rename_i hover
      obtain ⟨h1, rfl⟩ := Prod.mk.inj h
      rw [if_pos hover, hcap (Or.inl hover), h1]
    rename_i hover
    rw [if_neg hover]
    split at h
    · exact absurd (congrArg Prod.fst h) (by simp)
    rename_i hneg
    obtain rfl := hcap (Or.inr (by omega))
    rw [if_neg hneg]
    dsimp only
    split at h
    · -- a very big device: the 16-byte command is tried
      rename_i hbig
      rcases h16 : readCapacity16 q a.rc16 d₁ with ⟨m, d₂⟩
      obtain ⟨e₂, g16, hcap16⟩ := readCapacity16_indep h16 { e with capacity := d₁.capacity }
      have hframe := readCapacity16_frame q a.rc16 { e with capacity := d₁.capacity }
      rw [g16] at hframe
      rw [h16] at h
      rw [if_pos hbig, g16]
      dsimp only at h hframe ⊢
      split at h
      · rename_i hm
        obtain ⟨h1, rfl⟩ := Prod.mk.inj h
        rw [if_pos hm, hframe, h1]
      · rename_i hm
        obtain ⟨h1, rfl⟩ := Prod.mk.inj h
        rw [if_neg hm, hcap16 (Or.inr (by omega)), h1]
    · rename_i hbig
      obtain ⟨h1, rfl⟩ := Prod.mk.inj h
      rw [if_neg hbig, h1]

/-- What a scan makes of the reported capacity. -/
theorem sdRevalidateDisk_capacity {c : ℕ} (h : rawCapacity q a = some c) (d : SdDisk) :
    (sdRevalidateDisk q a d).capacity = reserveForSwap q d.firstScan d.capacity c ∧
      (sdRevalidateDisk q a d).firstScan = false := by
  refine ⟨?_, rfl⟩
  unfold rawCapacity at h
  split at h
  · rename_i size d' hread
    obtain rfl := Option.some.inj h
    have hd := sdReadSize_indep hread d
    show (sdReadCapacity q a d).capacity = _
    rw [sdReadCapacity_of_read (congrArg Prod.fst hd), hd]
    rfl
  · exact absurd h (by simp)

/-- The disk after call `k` of `sd_read_capacity`; the first is made by `sd_probe_async`. -/
def sdScans (q : SdAttrs) (as : ℕ → RcAnswers) : ℕ → SdDisk
  | 0 => sdRevalidateDisk q (as 0) .probed
  | k + 1 => sdRevalidateDisk q (as (k + 1)) (sdScans q as k)

/-- The capacities that keep the reserve where it is: `c₀` was reported first. -/
def Tolerated (enabled : Bool) (c₀ c : ℕ) : Prop :=
  if enabled then c = c₀ else c ≤ c₀ ∧ (c ≤ maxReservedSector → c ≤ c₀ - maxReservedSector)

/-- The reserve that starts at `r` is out of the capacity `p`, and on the disk. -/
def Reserving (enabled : Bool) (r p c : ℕ) : Prop := p ≤ r ∧ (r + maxReservedSector ≤ c ∨ enabled = false)

/-- One more scan. -/
theorem reserving_iff (hq : q.canSwap = true) {enabled : Bool} {c₀ p c : ℕ} (h0 : maxReservedSector < c₀)
    (hp : p ≤ c₀ - maxReservedSector) :
    Reserving enabled (c₀ - maxReservedSector) (reserveForSwap q false p c) c ↔ Tolerated enabled c₀ c := by
  unfold Reserving Tolerated reserveForSwap scsiGetReserveSectorsForSwap
  simp only [hq, maxReservedSector] at *
  cases enabled <;> simp <;> split_ifs <;> omega

/-- **The reserve stays reserved across revalidation** exactly if every capacity reported is
tolerated: while swapping is enabled, if it is the first one. -/
theorem reserve_kept_iff {q : SdAttrs} (hq : q.canSwap = true) {as : ℕ → RcAnswers} {c : ℕ → ℕ}
    (hc : ∀ k, rawCapacity q (as k) = some (c k)) (h0 : maxReservedSector < c 0) (enabled : Bool) (n : ℕ) :
    (∀ k ≤ n, Reserving enabled (sdScans q as 0).capacity (sdScans q as k).capacity (c k)) ↔
      ∀ k ≤ n, Tolerated enabled (c 0) (c k) := by
  have hstart : (sdScans q as 0).capacity = c 0 - maxReservedSector := by
    show (sdRevalidateDisk q (as 0) .probed).capacity = _
    rw [(sdRevalidateDisk_capacity (hc 0) _).1]
    unfold reserveForSwap scsiGetReserveSectorsForSwap
    simp [SdDisk.probed, hq, h0]
  have hfirst : ∀ k, (sdScans q as k).firstScan = false := by
    intro k
    cases k <;> rfl
  have hnext : ∀ k, (sdScans q as (k + 1)).capacity =
      reserveForSwap q false (sdScans q as k).capacity (c (k + 1)) := by
    intro k
    show (sdRevalidateDisk q (as (k + 1)) (sdScans q as k)).capacity = _
    rw [(sdRevalidateDisk_capacity (hc (k + 1)) _).1, hfirst]
  rw [hstart]
  induction n with
  | zero =>
    refine iff_of_true ?_ ?_ <;> intro k hk <;> obtain rfl := Nat.le_zero.1 hk
    · rw [hstart]
      exact ⟨le_rfl, Or.inl (by omega)⟩
    · unfold Tolerated
      split <;> omega
  | succ n ih =>
    constructor
    · intro h k hk
      rcases Nat.le_succ_iff.1 hk with hk | rfl
      · exact ih.1 (fun k hk => h k (by omega)) k hk
      · rw [← reserving_iff hq h0 (h n (by omega)).1, ← hnext]
        exact h (n + 1) le_rfl
    · intro h
      have hn := ih.2 fun k hk => h k (by omega)
      intro k hk
      rcases Nat.le_succ_iff.1 hk with hk | rfl
      · exact hn k hk
      · rw [hnext, reserving_iff hq h0 (hn n le_rfl).1]
        exact h (n + 1) le_rfl

/-- A disk that reports the same capacity four times. -/
theorem reserve_kept_unchanged :
    Reserving true (sdScans .plain (fun _ => .disk 4000000 512) 0).capacity
      (sdScans .plain (fun _ => .disk 4000000 512) 3).capacity 4000000 :=
  (reserve_kept_iff (c := fun _ => 4000000) rfl (fun _ => by decide +kernel) (by decide) true 3).2
    (fun _ _ => rfl) 3 le_rfl

/-- **A disk that has grown by one sector** is published with a capacity that reaches into the
reserve the swap code was given. -/
theorem reserve_lost_grown :
    let as := fun k => if k = 0 then RcAnswers.disk 4000000 512 else .disk 4000001 512
    rawCapacity .plain (as 0) = some 4000000 ∧ rawCapacity .plain (as 1) = some 4000001 ∧
      (sdScans .plain as 0).capacity = 1902848 ∧ (sdScans .plain as 1).capacity = 1902849 ∧
      ¬ Reserving true (sdScans .plain as 0).capacity (sdScans .plain as 1).capacity 4000001 := by
  intro as
  have h0 : (sdScans .plain as 0).capacity = 1902848 := by decide +kernel
  have h1 : (sdScans .plain as 1).capacity = 1902849 := by decide +kernel
  refine ⟨by decide +kernel, by decide +kernel, h0, h1, ?_⟩
  rw [h0, h1]
  unfold Reserving
  omega

end ScsiSwap
