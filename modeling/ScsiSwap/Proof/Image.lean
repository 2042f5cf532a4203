import ScsiSwap.Proof.Head
import ScsiSwap.Proof.Load
import ScsiSwap.Proof.Locality

/-!
# What a start takes over

`scsi_swap_core_init` on any contents of the reserve. It does not compare the table with the head, and of an
entry it checks the size, the checksum and two bounds.

* `MayFind`: the bitmaps that the search for a head can end with, by the head sectors that may fail to be read
  (one, if there is a good head where the search begins: `mayFind_of_good`);
* `Offers`: the table sectors that can be loaded;
* `ImageOk`: the images on which all of these fit together;
* `scsiSwapCoreInit_takes`: a start takes over nothing else;
* `exists_start`: each of these bitmaps can be met with each of these sectors;
* `init_consistent_iff`: so a start is consistent, whatever cannot be read, on these images and on no others;
* `init_inconsistent`: an image on which it is not, without any failure.
-/

namespace ScsiSwap

open StateOption SkipStore

variable {E : Env} {s s' : World} {R H : ℕ} {disk : ℕ → Sector} {bad : ℕ → Bool} {lost : ℕ → Prop}

/-! ## The head -/

/-- With the sectors `bad` unreadable, a search from block `j` on ends in block `i` with the bitmap `b`: that
of the head it finds there, or the empty one of a new head. -/
structure EndsIn (bad : ℕ → Bool) (H : ℕ) (disk : ℕ → Sector) (j i : ℕ) (b : BitVec 1024) : Prop where
  first : j ≤ i
  lt : i < maxSwapHeadBlockNum
  skipped : ∀ l, j ≤ l → l < i → Skipped bad disk H l
  stops : ¬ Skipped bad disk H i
  bits : b = (found bad disk H i).elim 0 SwapHead.bitmap

/-- The offset `k` is in the head area. Candidate blocks from 128 on are not: they run into the table. -/
abbrev InHeadArea (k : ℕ) : Prop := swapHeadOffest + k < swapTableOffset

/-- A search can end with the bitmap `b` when in the head area only the sectors `lost` may fail to be read. -/
def MayFind (lost : ℕ → Prop) (H : ℕ) (disk : ℕ → Sector) (b : BitVec 1024) : Prop :=
  ∃ bad i, (∀ k, InHeadArea k → bad k = true → lost k) ∧ EndsIn bad H disk 0 i b

/-- With a good head in the first sector, one that can be read, there is no other. -/
theorem mayFind_of_good {b : BitVec 1024} (hok : (headAt disk H 0).state = .ok) (hread : ¬ lost 0) :
    MayFind lost H disk b ↔ b = (headAt disk H 0).bitmap := by
  have hstate : ∀ bad : ℕ → Bool, bad 0 = false → headStateAt bad disk H (128 * 0) = .ok := fun bad h0 =>
    (headStateAt_good h0).trans hok
  have hstops : ∀ bad : ℕ → Bool, bad 0 = false → ¬ Skipped bad disk H 0 := by
    rintro bad h0 (hs | ⟨hs, -⟩) <;> exact absurd ((hstate bad h0).symm.trans hs) (by simp)
  have hfound : ∀ bad : ℕ → Bool, bad 0 = false → found bad disk H 0 = some (headAt disk H 0) := fun bad h0 =>
    if_pos (hstate bad h0)
  constructor
  · rintro ⟨bad, i, hbad, hends⟩
    have h0 : bad 0 = false := by
      by_contra hne
      exact hread (hbad 0 (by decide) (by simpa using hne))
    obtain rfl : i = 0 := by
      by_contra hi
      exact hstops bad h0 (hends.skipped 0 le_rfl (Nat.pos_of_ne_zero hi))
    rw [hends.bits, hfound bad h0]
    rfl
  · rintro rfl
    refine ⟨fun _ => false, 0, fun _ _ h => absurd h (by simp),
      le_rfl, by decide, fun l _ hl => absurd hl (by simp),
      hstops _ rfl, ?_⟩
    rw [hfound _ rfl]
    rfl

/-- Only reads fail, and in the head area only those of the sectors `lost`. -/
structure Env.OnlyLoses (E : Env) (R : ℕ) (lost : ℕ → Prop) : Prop where
  write : ∀ t c buf, E.write t c buf = .ok
  read : ∀ t k, InHeadArea k → ¬ lost k → E.read t ⟨(R + swapHeadOffest + k) % 2 ^ 32, 1, 5⟩ = .ok

theorem noForgedEntry_of_write (hw : ∀ t c buf, E.write t c buf = .ok) : E.NoForgedEntry := by
  intro t c buf junk nc k sec hf _
  rw [hw] at hf
  exact absurd hf (by simp)

/-- `bad`, with other answers for the two heads of block `j`. -/
def answerAt (j : ℕ) (master backup : Bool) (bad : ℕ → Bool) : ℕ → Bool :=
  Function.update (Function.update bad (128 * j) master) (128 * j + 64) backup

section answerAt

variable {i j : ℕ} {m k : Bool}

theorem answerAt_master : answerAt j m k bad (128 * j) = m := by
  unfold answerAt
  rw [Function.update_of_ne (by omega), Function.update_self]

theorem answerAt_backup : answerAt j m k bad (128 * j + 64) = k := Function.update_self ..

theorem answerAt_lost (hm : InHeadArea (128 * j) → m = true → lost (128 * j))
    (hk : InHeadArea (128 * j + 64) → k = true → lost (128 * j + 64))
    (hbad : ∀ x, InHeadArea x → bad x = true → lost x) (x : ℕ) (hx : InHeadArea x)
    (h : answerAt j m k bad x = true) : lost x := by
  by_cases h1 : x = 128 * j + 64
  · subst h1
    rw [answerAt_backup] at h
    exact hk hx h
  by_cases h2 : x = 128 * j
  · subst h2
    rw [answerAt_master] at h
    exact hm hx h
  · unfold answerAt at h
    rw [Function.update_of_ne h1, Function.update_of_ne h2] at h
    exact hbad x hx h

theorem headStateAt_answerAt (hij : i ≠ j) (c : ℕ) (hc : c = 128 * i ∨ c = 128 * i + 64) :
    headStateAt (answerAt j m k bad) disk H c = headStateAt bad disk H c := by
  unfold headStateAt answerAt
  rw [Function.update_of_ne (by omega), Function.update_of_ne (by omega)]

theorem skipped_answerAt (hij : i ≠ j) :
    Skipped (answerAt j m k bad) disk H i ↔ Skipped bad disk H i := by
  unfold Skipped
  rw [headStateAt_answerAt hij _ (Or.inl rfl), headStateAt_answerAt hij _ (Or.inr rfl)]

theorem found_answerAt (hij : i ≠ j) : found (answerAt j m k bad) disk H i = found bad disk H i := by
  unfold found
  rw [headStateAt_answerAt hij _ (Or.inl rfl), headStateAt_answerAt hij _ (Or.inr rfl)]

/-- A search that goes past block `j`. -/
theorem EndsIn.past {b : BitVec 1024} (h : EndsIn bad H disk (j + 1) i b)
    (hs : Skipped (answerAt j m k bad) disk H j) : EndsIn (answerAt j m k bad) H disk j i b := by
  have hji := h.first
  refine ⟨by omega, h.lt, fun l h1 h2 => ?_, ?_, ?_⟩
  · rcases Nat.eq_or_lt_of_le h1 with rfl | hlt
    · exact hs
    · exact (skipped_answerAt (by omega)).2 (h.skipped l hlt h2)
  · rw [skipped_answerAt (by omega)]
    exact h.stops
  · rw [found_answerAt (by omega)]
    exact h.bits

end answerAt

/-- A head that is reported valid is the one on the disk. -/
theorem swapGetHeadState_found {sector : ℕ} {old head : SwapHead}
    (h : (swapGetHeadState E sector old).run s = some ((.ok, head), s')) :
    head = headAt s.disk sector 0 ∧ head.state = .ok := by
  unfold swapGetHeadState at h
  obtain ⟨⟨ok, buf⟩, s₁, h1, h2⟩ := run_bind_iff.1 h
  obtain ⟨e, -⟩ := run_pure_iff.1 h2
  obtain ⟨hst, rfl⟩ := Prod.mk.inj e
  cases ok with
  | false => exact absurd hst (by simp)
  | true =>
    rw [hdReadSector_one h1] at hst ⊢
    exact ⟨rfl, hst.symm⟩

/-- What is reported of a head: that it could not be read, or what is on the disk. -/
theorem swapGetHeadState_reads (hE : E.OnlyLoses R lost) {k : ℕ} {old head : SwapHead} {st : HeadState}
    (h : (swapGetHeadState E (R + swapHeadOffest + k) old).run s = some ((st, head), s')) :
    s'.disk = s.disk ∧ s'.core.head = s.core.head ∧ ∃ m : Bool, (InHeadArea k → m = true → lost k) ∧
      (st = if m then .fail else (headAt s.disk (R + swapHeadOffest) k).state) ∧
      (m = false → head = headAt s.disk (R + swapHeadOffest) k) := by
  unfold swapGetHeadState at h
  obtain ⟨⟨ok, buf⟩, s₁, h1, h2⟩ := run_bind_iff.1 h
  obtain ⟨hc, hd⟩ := hdReadSector_calm h1
  obtain ⟨e, rfl⟩ := run_pure_iff.1 h2
  obtain ⟨rfl, rfl⟩ := Prod.mk.inj e
  refine ⟨hd, by rw [hc.core], !ok, fun hk hm => ?_, ?_, fun hm => ?_⟩
  · by_contra hl
    rw [hdReadSectorRetry, hdReadSector_run] at h1
    have hok := congrArg (fun r => r.1.1) (Option.some.inj h1)
    dsimp only at hok
    rw [show 1 % 2 ^ 16 = 1 from rfl, hE.read _ _ hk hl] at hok
    rw [← hok] at hm
    exact absurd hm (by simp [IoResult.isOk])
  · cases ok with
    | false => rfl
    | true =>
      rw [hdReadSector_one h1]
      rfl
  · obtain rfl : ok = true := by simpa using hm
    rw [hdReadSector_one h1]
    rfl

/-- A head that could not be read is not reported as good. -/
theorem read_of_ok {m : Bool} {st x : HeadState} (hst : st = if m then .fail else x) (hok : st = .ok) :
    m = false := by
  cases m with
  | false => rfl
  | true => exact absurd (hok.symm.trans hst) (by simp)

/-- The bitmap after a search that ends in a block: that of the master, else of the backup, else an empty
one. -/
theorem headSettled_bits {secStart : ℕ} {st stBack : HeadState} {head headBack : SwapHead}
    (hbits : s.core.head = head)
    (h : (if st = .ok then (do
        repairBackup E secStart head stBack
        modify fun s => { s with core.sectorHead := secStart }
        return true)
      else if stBack = .ok then (do
        modify fun s => s.setHead headBack
        let _ ← hdWriteSectorRetry E .head secStart 1 (fun _ => swapHeadEquiv headBack)
        modify fun s => { s with core.sectorHead := secStart }
        return true)
      else (do
        if ← swapCreateNewHead E then return true
        else
          deviceDeadInc
          return false) : SwapM Bool).run s = some (true, s')) :
    s'.core.head.bitmap = if st = .ok then head.bitmap else if stBack = .ok then headBack.bitmap else 0 := by
  split at h
  · rename_i hok
    obtain ⟨u, s₁, h1, h2⟩ := run_bind_iff.1 h
    rw [run_modify_bind] at h2
    obtain ⟨-, rfl⟩ := run_pure_iff.1 h2
    have hsame : SameBits s s₁ := repairBackup_sameBits _ _ _ _ _ _ h1
    rw [if_pos hok, ← hbits]
    exact hsame
  rename_i hnotOk
  rw [if_neg hnotOk]
  split at h
  · rename_i hok
    rw [run_modify_bind] at h
    obtain ⟨ok, s₁, h1, h2⟩ := run_bind_iff.1 h
    rw [run_modify_bind] at h2
    obtain ⟨-, rfl⟩ := run_pure_iff.1 h2
    rw [if_pos hok]
    exact (hdWriteSector_dev h1).bitmap
  · rename_i hnotOkBack
    rw [if_neg hnotOkBack]
    obtain ⟨ok, s₁, h1, h2⟩ := run_bind_iff.1 h
    cases ok with
    | false =>
      obtain ⟨u, s₂, -, h4⟩ := run_bind_iff.1 h2
      exact absurd (run_pure_iff.1 h4).1 (by simp)
    | true =>
      obtain ⟨-, rfl⟩ := run_pure_iff.1 h2
      exact swapCreateNewHead_bits h1

/-- **Where the bitmap comes from.** -/
theorem initHeadLoop_finds (hE : E.OnlyLoses R lost) : ∀ {n j : ℕ} {s s' : World},
    (initHeadLoop E n (R + swapHeadOffest + 128 * j)).run s = some (true, s') → j + n = maxSwapHeadBlockNum →
    ∃ bad i, (∀ k, InHeadArea k → bad k = true → lost k) ∧
      EndsIn bad (R + swapHeadOffest) s.disk j i s'.core.head.bitmap := by
  intro n
  induction n with
  | zero =>
    intro j s s' h _
    obtain ⟨u, s₁, -, h2⟩ := run_bind_iff.1 h
    exact absurd (run_pure_iff.1 h2).1 (by simp)
  | succ n ih =>
    intro j s s' h hn
    have hj : j < maxSwapHeadBlockNum := by omega
    unfold initHeadLoop at h
    rw [run_get_bind] at h
    obtain ⟨⟨st, head⟩, s₁, h1, h2⟩ := run_bind_iff.1 h
    obtain ⟨hd1, -, m, hm, hst, hhead⟩ := swapGetHeadState_reads hE h1
    dsimp only at h2
    rw [run_modify_bind] at h2
    have hmaster : ∀ k bad, headStateAt (answerAt j m k bad) s.disk (R + swapHeadOffest) (128 * j) = st := by
      intro k bad
      unfold headStateAt
      rw [answerAt_master, hst]
    split at h2
    · -- a block that is marked
      rename_i hinv
      obtain ⟨bad, i, hbad, hends⟩ := ih (j := j + 1) h2 (by omega)
      rw [show (s₁.setHead head).disk = s.disk from hd1] at hends
      refine ⟨answerAt j m false bad, i, answerAt_lost hm (fun _ h => absurd h (by simp)) hbad,
        hends.past (Or.inl ?_)⟩
      rw [hmaster, hinv]
    rename_i hinv
    obtain ⟨⟨stBack, headBack⟩, s₂, h3, h4⟩ := run_bind_iff.1 h2
    rw [Nat.add_assoc (R + swapHeadOffest), show swapHeadBackupOffest = 64 from rfl] at h3
    obtain ⟨hd2, hb2, k, hk, hstBack, hheadBack⟩ := swapGetHeadState_reads hE h3
    rw [show (s₁.setHead head).disk = s.disk from hd1] at hd2 hstBack hheadBack
    have hbackup : ∀ bad, headStateAt (answerAt j m k bad) s.disk (R + swapHeadOffest)
        (128 * j + 64) = stBack := by
      intro bad
      unfold headStateAt
      rw [answerAt_backup, hstBack]
    dsimp only at h4
    split at h4
    · -- a block that cannot be read
      rename_i hfail
      obtain ⟨bad, i, hbad, hends⟩ := ih (j := j + 1) h4 (by omega)
      rw [hd2] at hends
      refine ⟨answerAt j m k bad, i, answerAt_lost hm hk hbad, hends.past (Or.inr ⟨?_, ?_⟩)⟩
      · rw [hmaster, hfail.1]
      · rw [hbackup, hfail.2]
    rename_i hfail
    -- the search ends here
    refine ⟨answerAt j m k fun _ => false, j, answerAt_lost hm hk fun _ _ h => absurd h (by simp), le_rfl, hj,
      fun l h1 h2 => by omega, ?_, ?_⟩
    · unfold Skipped
      rw [hmaster, hbackup]
      exact not_or.2 ⟨hinv, hfail⟩
    rw [headSettled_bits hb2 h4]
    unfold found
    rw [hmaster, hbackup]
    split
    · rename_i hok
      rw [hhead (read_of_ok hst hok)]
      rfl
    split
    · rename_i hok
      rw [hheadBack (read_of_ok hstBack hok)]
      rfl
    · rfl

/-! ## The table -/

/-- The entries of the listed mappings, without the record of where they were saved. -/
def World.entries (s : World) : List SwapTable := s.core.infoList.map fun p => (s.heap p).table.strip

/-- An entry that fits the layout of the reserve. -/
structure SwapTable.Placed (R : ℕ) (t : SwapTable) : Prop where
  index : t.index.toNat < maxSwapBlock
  swap : t.swapSec.toNat = R + swapDataOffset + 128 * t.index.toNat
  aligned : t.srcSec.toNat % 128 = 0
  src : t.srcSec.toNat < R

/-- Two entries that do not get in each other's way. -/
def SwapTable.Apart (t u : SwapTable) : Prop := t.srcSec ≠ u.srcSec ∧ t.index ≠ u.index

/-- The entries `ts` agree with each other, with the layout of the reserve and with the bitmap `b`. -/
structure Consistent (R : ℕ) (b : BitVec 1024) (ts : List SwapTable) : Prop where
  placed : ∀ t ∈ ts, t.Placed R
  bit : ∀ t ∈ ts, b.getLsbD t.index.toNat = true
  apart : ts.Pairwise SwapTable.Apart

theorem consistent_nil (R : ℕ) (b : BitVec 1024) : Consistent R b [] := ⟨by simp, by simp, .nil⟩

/-- No entry fits an empty bitmap. -/
theorem Consistent.eq_nil {ts : List SwapTable} (h : Consistent R 0 ts) : ts = [] := by
  refine List.eq_nil_iff_forall_not_mem.2 fun t ht => ?_
  have hbit := h.bit t ht
  rw [BitVec.ofNat_eq_ofNat, BitVec.getLsbD_zero] at hbit
  exact absurd hbit (by simp)

/-- Sector `k` of the copy of the table at offset `a` can be loaded: its entries pass the tests, and what ends
them does not look like one. -/
structure Offers (R : ℕ) (disk : ℕ → Sector) (a k : ℕ) : Prop where
  copy : a = swapTableOffset ∨ a = swapTableBackupOffset
  lt : k < 32
  accepted : ∀ t ∈ content (area disk R a k), t.acceptable R = true
  ended : ∀ t ∈ endOf (area disk R a k), t.secSize ≠ 128

/-- Sectors of one copy that can be loaded together: all but the last one are full. -/
structure Selection (R : ℕ) (disk : ℕ → Sector) (a : ℕ) (ks : List ℕ) : Prop where
  offers : ∀ k ∈ ks, Offers R disk a k
  full : ks.Pairwise fun k l => k < l ∧ (content (area disk R a k)).length = 8

/-- The entries they hold. -/
abbrev loadedFrom (R : ℕ) (disk : ℕ → Sector) (a : ℕ) (ks : List ℕ) : List SwapTable :=
  ks.flatMap fun k => content (area disk R a k)

/-- Every table sector that can be loaded, and every two that can be loaded together, agree with every bitmap
that the search for a head can end with. -/
structure ImageOk (R : ℕ) (disk : ℕ → Sector) (lost : ℕ → Prop) : Prop where
  one : ∀ b a k, MayFind lost (R + swapHeadOffest) disk b → Offers R disk a k →
    Consistent R b (content (area disk R a k))
  two : ∀ b a k l, MayFind lost (R + swapHeadOffest) disk b → Offers R disk a k → Offers R disk a l → k < l →
    (content (area disk R a k)).length = 8 →
    Consistent R b (content (area disk R a k) ++ content (area disk R a l))

/-- On such an image, any selection will do. -/
theorem ImageOk.consistent (h : ImageOk R disk lost) {a : ℕ} {b : BitVec 1024} {ks : List ℕ}
    (hb : MayFind lost (R + swapHeadOffest) disk b) (hks : Selection R disk a ks) :
    Consistent R b (loadedFrom R disk a ks) := by
  refine ⟨fun t ht => ?_, fun t ht => ?_, ?_⟩
  · obtain ⟨k, hk, ht⟩ := List.mem_flatMap.1 ht
    exact (h.one b a k hb (hks.offers k hk)).placed t ht
  · obtain ⟨k, hk, ht⟩ := List.mem_flatMap.1 ht
    exact (h.one b a k hb (hks.offers k hk)).bit t ht
  · rw [List.pairwise_flatMap]
    refine ⟨fun k hk => (h.one b a k hb (hks.offers k hk)).apart, ?_⟩
    refine (List.Pairwise.and_mem.1 hks.full).imp ?_
    rintro k l ⟨hk, hl, hlt, hlen⟩
    exact (List.pairwise_append.1 (h.two b a k l hb (hks.offers k hk) (hks.offers l hl) hlt hlen).apart).2.2

/-- The geometry after a search for a head. -/
theorem Boot.bootGeom {g₀ : Geom} {h : ℕ} (hb : Boot R s s') (hg : s.geom = bootGeom g₀ R h) :
    s'.geom = ScsiSwap.bootGeom g₀ R s'.core.sectorHead := by
  have hrest := hb.geom
  rw [hg] at hrest
  exact congrArg (fun g : Geom => ({ g with head := s'.core.sectorHead } : Geom)) hrest

/-- **A start takes over what the disk holds.** If `scsi_swap_core_init` returns 0, the mappings are those of a
selection of sectors of one copy of the table, and the bitmap is one that the search can end with. -/
theorem scsiSwapCoreInit_takes (hE : E.OnlyLoses R lost) (h : (scsiSwapCoreInit E R).run s = some (true, s')) :
    MayFind lost (R + swapHeadOffest) s.disk s'.core.head.bitmap ∧
      ∃ a ks, Selection R s.disk a ks ∧ s'.entries = loadedFrom R s.disk a ks := by
  unfold scsiSwapCoreInit at h
  rw [run_modify_bind] at h
  obtain ⟨found, s₁, h1, h2⟩ := run_bind_iff.1 h
  cases found with
  | false => exact absurd (run_pure_iff.1 h2).1 (by simp)
  | true =>
    rw [if_pos rfl] at h2
    obtain ⟨loaded, s₂, h3, h4⟩ := run_bind_iff.1 h2
    cases loaded with
    | false =>
      unfold swapInfoDestroy at h4
      rw [if_neg (by simp), run_modify_bind] at h4
      exact absurd (run_pure_iff.1 h4).1 (by simp)
    | true =>
      rw [if_pos rfl, run_modify_bind] at h4
      obtain ⟨-, rfl⟩ := run_pure_iff.1 h4
      have hfinds := initHeadLoop_finds hE (j := 0) h1 rfl
      obtain ⟨hboot, -⟩ := initHeadLoop_boot (R := R) (noForgedEntry_of_write hE.write) (j := 0) h1 rfl rfl rfl
      have hg1 := hboot.bootGeom (show _ = bootGeom s.geom R (R + swapHeadOffest) from rfl)
      have hsame : ∀ {a k : ℕ}, TableStart (bootGeom s.geom R s₁.core.sectorHead) a → k < 32 →
          s₁.disk ((a + k) % 2 ^ 32) = s.disk ((a + k) % 2 ^ 32) ∨ NoEntry (s₁.disk ((a + k) % 2 ^ 32)) := by
        intro a k ha hk
        obtain ⟨c, hc, rfl⟩ := ha.offset
        rw [Nat.add_assoc]
        refine hboot.disk (c + k) ?_
        rcases hc with rfl | rfl <;>
          simp only [swapTableOffset, swapTableBackupOffset, maxReservedSector, sector8M] <;> omega
      have hrule : LoaderRule E (bootGeom s.geom R s₁.core.sectorHead)
          (fun a k => slotsOf (s.disk ((a + k) % 2 ^ 32)))
          (Loading (fun _ => True) s.geom R s₁.core.sectorHead s.disk s₁) :=
        loading_rule s.disk s₁ fun _ _ => trivial
      have hstart : ∀ a, TableStart (bootGeom s.geom R s₁.core.sectorHead) a →
          Loading (fun _ => True) s.geom R s₁.core.sectorHead s.disk s₁ a s₁ :=
        fun a ha => ⟨hg1, ha, .refl _, fun k hk => hsame ha hk⟩
      obtain ⟨-, -, -, -, -, -, hhead⟩ := initSwapInfo_rule hrule h3 hstart
      have hsec : ∀ a t, Loading (fun _ => True) s.geom R s₁.core.sectorHead s.disk s₁ a t → ∀ k < 32,
          t.disk ((a + k) % 2 ^ 32) = s.disk ((a + k) % 2 ^ 32) ∨ NoEntry (t.disk ((a + k) % 2 ^ 32)) :=
        fun a t hl k hk => hl.same k hk
      obtain ⟨a, ks, ha, hks, hlists⟩ := initSwapInfo_selects hrule h3 hstart hsec
      obtain ⟨c, hc, rfl⟩ := ha.offset
      have harea : ∀ k, s.disk ((R + c + k) % 2 ^ 32) = area s.disk R c k := fun k => by
        unfold area
        rw [Nat.add_assoc]
      have hbits : s₂.core.head.bitmap = s₁.core.head.bitmap := by
        show s₂.view.head.bitmap = s₁.view.head.bitmap
        rw [hhead rfl]
      simp only [harea] at hks hlists
      refine ⟨?_, c, ks, ⟨fun k hk => ?_, hks.full⟩, hlists.tables⟩
      · show MayFind _ _ _ s₂.core.head.bitmap
        rw [hbits]
        exact hfinds
      · obtain ⟨hlt, htaken⟩ := hks.taken k hk
        exact ⟨hc, hlt, fun t ht => acceptable_iff.2 (htaken.accepted t ht), htaken.ended⟩

/-! ## Every pattern can be met -/

/-- Single sectors at the offsets `bad` from `H` on cannot be read. All else works. -/
def Env.deaf (H : ℕ) (bad : ℕ → Bool) : Env :=
  { Env.refusing (fun _ _ => false) with
    read := fun _ c => if c.count = 1 ∧ bad ((c.lba + (2 ^ 32 - H % 2 ^ 32)) % 2 ^ 32) = true then
        .fail (fun _ => none) false
      else .ok }

theorem deaf_read {t k r : ℕ} (hk : k < 2 ^ 32) :
    (Env.deaf H bad).read t ⟨(H + k) % 2 ^ 32, 1, r⟩ =
      if bad k = true then .fail (fun _ => none) false else .ok := by
  have hoff : ((H + k) % 2 ^ 32 + (2 ^ 32 - H % 2 ^ 32)) % 2 ^ 32 = k := by omega
  simp only [Env.deaf, hoff, true_and]

theorem deaf_read_many {t : ℕ} {c : Cmd} (hc : c.count ≠ 1) : (Env.deaf H bad).read t c = .ok :=
  if_neg fun h => hc h.1

theorem deaf_faults : (Env.deaf H bad).ReadFaults H bad := by
  refine ⟨fun t k hk hb => ?_, fun t k hk hb => ?_⟩
  · rw [deaf_read (hk.trans (by decide)), hb]
    rfl
  · rw [deaf_read (hk.trans (by decide)), hb]
    rfl

/-- Reads fail in the head area for `bad` before the moment `τ`, and for the table from then on. -/
theorem switch_onlyLoses {τ : ℕ} {bad' : ℕ → Bool} (hbad : ∀ k, InHeadArea k → bad k = true → lost k)
    (hbad' : ∀ k < swapTableOffset, bad' k = false) :
    ((Env.deaf (R + swapHeadOffest) bad).switch τ (Env.deaf R bad')).OnlyLoses R lost := by
  refine ⟨fun t c buf => ?_, fun t k hk hl => ?_⟩
  · show (if t < τ then (Env.deaf _ bad).write t else (Env.deaf R bad').write t) c buf = .ok
    split <;> rfl
  · have h32 : swapTableOffset < 2 ^ 32 := by decide
    show (if t < τ then (Env.deaf _ bad).read t else (Env.deaf R bad').read t) _ = .ok
    split
    · rw [deaf_read (show k < 2 ^ 32 by unfold InHeadArea at hk; omega), if_neg fun hb => hl (hbad k hk hb)]
    · rw [Nat.add_assoc, deaf_read (hk.trans h32), hbad' _ hk]
      rfl

/-! ### The head -/

section writable

variable (hw : ∀ t c buf, E.write t c buf = .ok)
include hw

theorem swapCheckBlockBySector_writable : ∀ (n i : ℕ) (s : World), i + n ≤ 128 →
    ∃ s', (swapCheckBlockBySector E H n i).run s = some (none, s') ∧ Calm s s' ∧
      ∀ k < maxReservedSector, 128 ≤ k → s'.disk ((H + k) % 2 ^ 32) = s.disk ((H + k) % 2 ^ 32) := by
  intro n
  induction n with
  | zero => exact fun i s _ => ⟨s, rfl, Calm.refl s, fun _ _ _ => rfl⟩
  | succ n ih =>
    intro i s hn
    have hmax : 128 ≤ maxReservedSector := by decide
    obtain ⟨ok, s₁, h1, hc1, hd1⟩ := writeOne_run E .head (H + i) zeroSector s
    have hok := (hdWriteSector_one h1).1
    rw [hw] at hok
    obtain ⟨s', h2, hc2, hd2⟩ := ih (i + 1) s₁ (by omega)
    refine ⟨s', ?_, hc1.trans hc2, fun k hk h128 => (hd2 k hk h128).trans (hd1 _ fun he => ?_)⟩
    · unfold swapCheckBlockBySector
      rw [run_bind_of h1, hok]
      exact h2
    · have := addr_inj hk (show i < maxReservedSector by omega) he
      omega

/-- A head is written to the first block. -/
theorem flushSwapHead_writable (hs : s.core.sectorHead = H) :
    ∃ s', (flushSwapHead E).run s = some (true, s') ∧ s'.core.head.bitmap = s.core.head.bitmap ∧
      ∀ k < maxReservedSector, 128 ≤ k → s'.disk ((H + k) % 2 ^ 32) = s.disk ((H + k) % 2 ^ 32) := by
  have hmax : 128 ≤ maxReservedSector := by decide
  obtain ⟨s₁, s', ok, ok', h1, h2, hrun, -, hhead⟩ := flushSwapHead_run E s
  have hd1 := (hdWriteSector_one h1).2
  obtain ⟨hok, hd2⟩ := hdWriteSector_one h2
  rw [hw] at hok
  obtain rfl : ok' = true := hok
  refine ⟨s', hrun, by rw [hhead]; rfl, fun k hk h128 => ?_⟩
  have hne : ∀ c < 128, (H + k) % 2 ^ 32 ≠ (H + c) % 2 ^ 32 := fun c hc he => by
    have := addr_inj hk (show c < maxReservedSector by omega) he
    omega
  have hne0 : (H + k) % 2 ^ 32 ≠ H % 2 ^ 32 := hne 0 (by omega)
  rw [hs] at hd1 hd2
  rw [hd2, Function.update_of_ne (hne 64 (by omega)), hd1, Function.update_of_ne hne0]
  rfl

theorem swapCreateNewHead'_writable (hs : s.core.sectorHead = H) :
    ∃ s', (swapCreateNewHead' E).run s = some (true, s') ∧ s'.core.head.bitmap = s.core.head.bitmap ∧
      ∀ k < maxReservedSector, 128 ≤ k → s'.disk ((H + k) % 2 ^ 32) = s.disk ((H + k) % 2 ^ 32) := by
  unfold swapCreateNewHead'
  rw [run_modify_bind]
  exact flushSwapHead_writable hw hs

/-- A new head, in the first block. -/
theorem createHeadLoop_writable (n : ℕ) (hs : s.core.sectorHead = H) :
    ∃ s', (createHeadLoop E (n + 1)).run s = some (true, s') ∧ s'.core.head.bitmap = s.core.head.bitmap ∧
      ∀ k < maxReservedSector, 128 ≤ k → s'.disk ((H + k) % 2 ^ 32) = s.disk ((H + k) % 2 ^ 32) := by
  obtain ⟨s₁, h1, hc1, hd1⟩ := swapCheckBlockBySector_writable hw (H := H) 128 0 s (by omega)
  have hs1 : s₁.core.sectorHead = H := by rw [hc1.core]; exact hs
  have hb1 : s₁.core.head.bitmap = s.core.head.bitmap := by rw [hc1.core]
  obtain ⟨s', h2, hb2, hd2⟩ := swapCreateNewHead'_writable hw
    (s := s₁.setHead { s₁.core.head with status := strncpy s₁.core.head.status strValid 5 }) hs1
  refine ⟨s', ?_, hb2.trans hb1, fun k hk h128 => (hd2 k hk h128).trans (hd1 k hk h128)⟩
  unfold createHeadLoop
  rw [run_get_bind, hs, run_bind_of h1]
  dsimp only
  rw [run_modify_bind]
  exact h2

/-- The search ends as `EndsIn` says. -/
theorem initSwapHead_ends (hE : E.ReadFaults H bad) (hs : s.core.sectorHead = H) {i : ℕ} {b : BitVec 1024}
    (h : EndsIn bad H s.disk 0 i b) :
    ∃ s', (initSwapHead E H).run s = some (true, s') ∧ s'.core.head.bitmap = b ∧
      ∀ k < maxReservedSector, 128 ≤ k → (found bad s.disk H i ≠ none → k ≠ 128 * i ∧ k ≠ 128 * i + 64) →
        s'.disk ((H + k) % 2 ^ 32) = s.disk ((H + k) % 2 ^ 32) := by
  have hbound := block_bound h.lt
  obtain ⟨s₁, hs1, hrun⟩ := headLoop_enter hE h.lt fun k hk => h.skipped k (Nat.zero_le k) hk
  have hstops := h.stops
  have hbits := h.bits
  rw [← hs1.disk] at hstops hbits
  unfold initSwapHead
  rw [initHeadLoop_eq, hrun]
  cases hf : found bad s₁.disk H i with
  | some x =>
    obtain ⟨s₂, h2, -, hhead, hm, hb⟩ := headLoop_found (n := 1023 - i) hE hbound hstops hf
    refine ⟨s₂, h2 _, ?_, fun k hk _ hne => ?_⟩
    · rw [hhead, hbits, hf]
      rfl
    · rw [← hs1.disk] at hne ⊢
      obtain ⟨h1, h2⟩ := hne (by rw [hf]; simp)
      by_cases hok : headStateAt bad s₁.disk H (128 * i) = .ok
      · exact hm hok _ fun he => h2 (addr_inj hk (by omega) he)
      · exact (hb hok).1 _ fun he => h1 (addr_inj hk (by omega) he)
  | none =>
    obtain ⟨s₂, hs2, h2⟩ := headLoop_create (n := 1023 - i) hE hbound hstops hf
    obtain ⟨s₃, h3, hzero, hd3⟩ := createHeadLoop_writable hw 1023 (s := s₂.setHead SwapHead.zero)
      (hs2.sector.trans (hs1.sector.trans hs))
    have hcreate : (swapCreateNewHead E).run s₂ = some (true, s₃) := h3
    refine ⟨s₃, ?_, ?_, fun k hk h128 _ => ?_⟩
    · rw [h2, run_bind_of hcreate]
      rfl
    · rw [hzero, hbits, hf]
      rfl
    · rw [hd3 k hk h128, ← hs1.disk, ← hs2.disk]
      rfl

end writable

/-! ### The table -/

/-- Of the table, only the sectors `ks` of the copy at offset `a` can be read. -/
def allBut (a : ℕ) (ks : List ℕ) (o : ℕ) : Bool := decide (swapTableOffset ≤ o ∧ ∀ k ∈ ks, o ≠ a + k)

theorem allBut_false {a c j : ℕ} {ks : List ℕ} (ha : a = swapTableOffset ∨ a = swapTableBackupOffset)
    (hc : c = swapTableOffset ∨ c = swapTableBackupOffset) (hj : j < 32) (hks : ∀ k ∈ ks, k < 32) :
    allBut a ks (c + j) = false ↔ c = a ∧ j ∈ ks := by
  have hfar : swapTableOffset + 32 < swapTableBackupOffset := by decide
  unfold allBut
  rw [decide_eq_false_iff_not, not_and]
  constructor
  · intro h
    obtain ⟨k, hk, he⟩ : ∃ k ∈ ks, c + j = a + k := by
      by_contra hno
      exact h (by omega) fun k hk he => hno ⟨k, hk, he⟩
    have := hks k hk
    obtain ⟨rfl, rfl⟩ : c = a ∧ j = k := by omega
    exact ⟨rfl, hk⟩
  · rintro ⟨rfl, hjk⟩ - hall
    exact hall j hjk rfl

/-- What the loader sees of a copy. -/
theorem scan_allBut {a c : ℕ} {ks : List ℕ} (hks : Selection R disk a ks)
    (ha : a = swapTableOffset ∨ a = swapTableBackupOffset)
    (hc : c = swapTableOffset ∨ c = swapTableBackupOffset) :
    scan 8 (seen (allBut a ks) disk R c) 32 0 =
      if c = a then ks.flatMap fun k => entriesOf (area disk R a k) else [] := by
  have hlt : ∀ k ∈ ks, k < 32 := fun k hk => (hks.offers k hk).lt
  have hseen : ∀ j < 32, seen (allBut a ks) disk R c j =
      if c = a ∧ j ∈ ks then some (entriesOf (area disk R c j)) else none := by
    intro j hj
    have hiff := allBut_false ha hc hj hlt
    unfold seen
    by_cases h : c = a ∧ j ∈ ks
    · rw [if_pos h, hiff.2 h, if_neg (by simp)]
    · rw [if_neg h, if_pos (by simpa using mt hiff.1 h)]
  split
  · rename_i hca
    subst hca
    refine scan_select (fun i hi => ⟨Nat.zero_le i, by have := hlt i hi; omega⟩) (hks.full.imp ?_)
      fun i _ hi => ?_
    · rintro k l ⟨hkl, hlen⟩
      exact ⟨hkl, by rwa [content, List.length_map] at hlen⟩
    · rw [hseen i (by omega)]
      simp
  · rename_i hca
    refine (scan_select (f := fun _ => []) (by simp) .nil fun i _ hi => ?_).trans rfl
    rw [hseen i (by omega)]
    simp [hca]

/-- The loader takes what it is offered. -/
theorem initSwapInfo_selected {a h : ℕ} {g₀ : Geom} {ks : List ℕ} (hks : Selection R s.disk a ks)
    (ha : a = swapTableOffset ∨ a = swapTableBackupOffset) (hg : s.geom = bootGeom g₀ R h) :
    ∃ s', (initSwapInfo (Env.deaf R (allBut a ks))).run s = some (true, s') ∧ s'.core.head = s.core.head ∧
      s'.entries = loadedFrom R s.disk a ks := by
  have hlt : ∀ k ∈ ks, k < 32 := fun k hk => (hks.offers k hk).lt
  have hne : swapTableOffset ≠ swapTableBackupOffset := by decide
  set es := ks.flatMap fun k => entriesOf (area s.disk R a k) with hes
  have hm := scan_allBut hks ha (c := swapTableOffset) (Or.inl rfl)
  have hb := scan_allBut hks ha (c := swapTableBackupOffset) (Or.inr rfl)
  rw [← hes] at hm hb
  -- the sectors that can be read are those of the selection
  have hload : ∀ c, c = swapTableOffset ∨ c = swapTableBackupOffset → ∀ i < 32, allBut a ks (c + i) = false →
      ∀ t ∈ entriesOf (area s.disk R c i), Loadable (Env.deaf R (allBut a ks)) s.geom t := by
    intro c hc i hi hread t ht
    obtain ⟨rfl, hik⟩ := (allBut_false ha hc hi hlt).1 hread
    have hacc := SwapTable.accepted_strip
      (acceptable_iff.1 ((hks.offers i hik).accepted t.strip (List.mem_map_of_mem ht)) :
      t.strip.Accepted (bootGeom g₀ R h))
    rw [← hg] at hacc
    exact ⟨hacc.crc, hacc.swap, hacc.src, fun tick => deaf_read_many (by simp)⟩
  have hend : ∀ t ∈ tableEnd (allBut a ks) s.disk R a 32 0, t.secSize ≠ 128 := by
    intro t ht
    obtain ⟨i, -, hi, hread, hend⟩ := mem_tableEnd ht
    exact (hks.offers i ((allBut_false ha ha (by omega) hlt).1 hread).2).ended t hend
  obtain ⟨s', hrun, hl, -⟩ := initSwapInfo_loads (s := s) deaf_faults (fun _ => rfl) (congrArg Geom.table hg)
    (congrArg Geom.reserve hg) hload hm.symm hb.symm (by
      by_cases hnil : es = []
      · left
        rw [hnil]
        exact ⟨by split <;> rfl, by split <;> rfl⟩
      · right
        have hpos : 0 < es.length := List.length_pos_of_ne_nil hnil
        rcases ha with rfl | rfl
        · rw [if_pos rfl, if_neg hne.symm, if_neg (by simp)]
          exact hend
        · rw [if_neg hne, if_pos rfl, if_pos (by simpa using hpos)]
          exact hend)
  refine ⟨s', hrun, hl.head, ?_⟩
  obtain ⟨ps, hlist, -, -, htab, -⟩ := hl.list
  have hpick : (if (if swapTableOffset = a then es else []).length <
      (if swapTableBackupOffset = a then es else []).length
      then if swapTableBackupOffset = a then es else [] else if swapTableOffset = a then es else []) = es := by
    rcases ha with rfl | rfl
    · rw [if_pos rfl, if_neg hne.symm, if_neg (by simp)]
    · rw [if_neg hne, if_pos rfl]
      split
      · rfl
      · rename_i hle
        exact (List.length_eq_zero_iff.1 (by simpa using hle)).symm
  rw [hpick] at htab
  have hstrip : s'.entries = (ps.map fun p => (s'.heap p).table).map SwapTable.strip := by
    unfold World.entries
    rw [hlist, List.map_map]
    rfl
  rw [hstrip, htab, hes, List.map_flatMap]
  rfl

/-- **Every bitmap can be met with every selection.** The one exception is a head found in block 128: its first
sector is the first sector of the table, too. -/
theorem exists_start {i : ℕ} {b : BitVec 1024} (hbad : ∀ k, InHeadArea k → bad k = true → lost k)
    (hends : EndsIn bad (R + swapHeadOffest) disk 0 i b) {a : ℕ} {ks : List ℕ}
    (ha : a = swapTableOffset ∨ a = swapTableBackupOffset) (hks : Selection R disk a ks)
    (hclash : i = 128 → found bad disk (R + swapHeadOffest) i ≠ none → a = swapTableOffset → 0 ∉ ks) :
    ∃ (E : Env) (s s' : World), E.OnlyLoses R lost ∧ s.disk = disk ∧
      (scsiSwapCoreInit E R).run s = some (true, s') ∧ s'.core.head.bitmap = b ∧
      s'.entries = loadedFrom R disk a ks := by
  set E₁ := Env.deaf (R + swapHeadOffest) bad
  set s : World := { World.blank with disk := disk }
  set s₀ : World := { s with core := { s.core with
    sectorReserveStart := R
    sectorHead := R + swapHeadOffest
    sectorData := R + swapDataOffset
    sectorTable := R + swapTableOffset } }
  obtain ⟨s₁, h1, hbits, hd⟩ := initSwapHead_ends (E := E₁) (s := s₀) (fun _ _ _ => rfl) deaf_faults rfl hends
  obtain ⟨hboot, -⟩ := initHeadLoop_boot (R := R) (noForgedEntry_of_write fun _ _ _ => rfl : E₁.NoForgedEntry)
    (j := 0) h1 rfl rfl rfl
  have hg : s₁.geom = bootGeom s.geom R s₁.core.sectorHead :=
    hboot.bootGeom (show _ = bootGeom s.geom R (R + swapHeadOffest) from rfl)
  -- the selected sectors are still what they were
  have harea : ∀ k ∈ ks, area s₁.disk R a k = area disk R a k := by
    intro k hk
    have hk32 := (hks.offers k hk).lt
    have hk0 : found bad disk (R + swapHeadOffest) i ≠ none → i = 128 → a = swapTableOffset → k ≠ 0 :=
      fun h1 h2 h3 h4 => hclash h2 h1 h3 (h4 ▸ hk)
    obtain ⟨o, ho⟩ : ∃ o, a + k = swapHeadOffest + o := ⟨a + k - swapHeadOffest, by
      simp only [swapTableOffset, swapTableBackupOffset, swapHeadOffest, maxReservedSector, sector8M] at ha ⊢
      omega⟩
    have hi := hends.lt
    simp only [swapTableOffset, swapTableBackupOffset, swapHeadOffest, maxReservedSector, sector8M,
      maxSwapHeadBlockNum] at ha ho hi
    simp only [swapTableOffset, sector8M] at hk0
    unfold area
    rw [show R + (a + k) = R + swapHeadOffest + o by simp only [swapHeadOffest, sector8M]; omega]
    refine hd o (by simp only [maxReservedSector]; omega) (by omega) fun hf => ?_
    have := hk0 hf
    omega
  have hks₁ : Selection R s₁.disk a ks := by
    refine ⟨fun k hk => ?_, (List.Pairwise.and_mem.1 hks.full).imp ?_⟩
    · obtain ⟨hc, hlt, hacc, hend⟩ := hks.offers k hk
      exact ⟨hc, hlt, by rw [harea k hk]; exact hacc, by rw [harea k hk]; exact hend⟩
    · rintro k l ⟨hk, -, hlt, hlen⟩
      exact ⟨hlt, by rw [harea k hk]; exact hlen⟩
  obtain ⟨s₂, h2, hhead, hentries⟩ := initSwapInfo_selected hks₁ ha hg
  refine ⟨E₁.switch s₁.tick (Env.deaf R (allBut a ks)), s,
    { s₂ with core := { s₂.core with deviceDead := 0, user := 0 } }, ?_, rfl, ?_, ?_, ?_⟩
  · refine switch_onlyLoses hbad fun k hk => ?_
    unfold allBut
    rw [decide_eq_false_iff_not]
    exact fun h => absurd h.1 (by omega)
  · unfold scsiSwapCoreInit
    rw [run_modify_bind, run_bind_of (initSwapHead_switch h1), if_pos rfl,
      run_bind_of (initSwapInfo_switch h2), if_pos rfl,
      run_modify_bind]
    rfl
  · show s₂.core.head.bitmap = b
    rw [hhead, hbits]
  · show s₂.entries = _
    rw [hentries]
    exact List.flatMap_congr fun k hk => by rw [harea k hk]

/-- A sector that holds a head, good or marked, holds no entry. -/
theorem content_head {k : ℕ} (h : (headAt disk H k).state = .ok ∨ (headAt disk H k).state = .invalid) :
    content (disk ((H + k) % 2 ^ 32)) = [] := by
  have hsec : disk ((H + k) % 2 ^ 32) = swapHeadEquiv (headAt disk H k) := (Equiv.apply_symm_apply ..).symm
  rw [hsec]
  refine (noEntry_head ?_).content_nil
  rcases h with h | h
  · rw [(SwapHead.named_of_ok h).status_zero]
    decide
  · rw [SwapHead.status_zero_of_invalid h]
    decide

/-- A search that comes to block 128 can end there with a new head, if the first sector of the table holds an
entry. -/
theorem EndsIn.reaches {i : ℕ} {b : BitVec 1024} (h : EndsIn bad (R + swapHeadOffest) disk 0 i b) (hi : i = 128)
    (hne : content (area disk R swapTableOffset 0) ≠ []) :
    EndsIn (answerAt 128 false true bad) (R + swapHeadOffest) disk 0 128 0 ∧
      found (answerAt 128 false true bad) disk (R + swapHeadOffest) 128 = none := by
  subst hi
  have harea : area disk R swapTableOffset 0 = disk ((R + swapHeadOffest + 128 * 128) % 2 ^ 32) := by
    unfold area
    rw [Nat.add_assoc R]
    rfl
  rw [harea] at hne
  have hstate : headStateAt (answerAt 128 false true bad) disk (R + swapHeadOffest) (128 * 128) =
      (headAt disk (R + swapHeadOffest) (128 * 128)).state := headStateAt_good answerAt_master
  have hfail : headStateAt (answerAt 128 false true bad) disk (R + swapHeadOffest) (128 * 128 + 64) = .fail :=
    headStateAt_bad answerAt_backup
  have hnone : found (answerAt 128 false true bad) disk (R + swapHeadOffest) 128 = none := by
    unfold found
    rw [hstate, hfail, if_neg fun hok => hne (content_head (Or.inl hok)), if_neg (by simp)]
  refine ⟨⟨Nat.zero_le _, by decide, fun l _ hl => ?_, ?_, by rw [hnone]; rfl⟩, hnone⟩
  · exact (skipped_answerAt (by omega)).2 (h.skipped l (Nat.zero_le l) hl)
  · unfold Skipped
    rw [hstate, hfail]
    rintro (hinv | ⟨hst, -⟩)
    · exact hne (content_head (Or.inr hinv))
    · exact SwapHead.state_ne_fail _ hst

/-- **When a start is consistent.** On an image whose loadable table sectors agree with every bitmap that the
search for a head can end with, it is, whichever reads fail (in the head area only those of the sectors
`lost`); on every other image there are failures with which it is not. -/
theorem init_consistent_iff (R : ℕ) (disk : ℕ → Sector) (lost : ℕ → Prop) :
    (∀ (E : Env) (s s' : World), E.OnlyLoses R lost → s.disk = disk →
      (scsiSwapCoreInit E R).run s = some (true, s') → Consistent R s'.core.head.bitmap s'.entries) ↔
    ImageOk R disk lost := by
  constructor
  · intro hall
    have hselect : ∀ b a ks, MayFind lost (R + swapHeadOffest) disk b →
        (a = swapTableOffset ∨ a = swapTableBackupOffset) → Selection R disk a ks →
        (∀ k ∈ ks, content (area disk R a k) ≠ []) → Consistent R b (loadedFrom R disk a ks) := by
      rintro b a ks ⟨bad, i, hbad, hends⟩ ha hks hne
      by_cases hclash : i = 128 ∧ a = swapTableOffset ∧ 0 ∈ ks
      · -- the first sector of the table could be taken for a block without a head
        obtain ⟨hi, rfl, h0⟩ := hclash
        obtain ⟨hends', hnone⟩ := hends.reaches hi (hne 0 h0)
        have hbad' := answerAt_lost (j := 128) (m := false) (k := true) (fun _ h => absurd h (by simp))
          (fun h => absurd h (by decide)) hbad
        obtain ⟨E, s, s', hE, hs, hrun, hbits, hentries⟩ := exists_start hbad' hends' (Or.inl rfl) hks
          fun _ h => absurd hnone h
        have hc := hall E s s' hE hs hrun
        rw [hbits, hentries] at hc
        have hnil := List.flatMap_eq_nil_iff.1 hc.eq_nil 0 h0
        exact absurd hnil (hne 0 h0)
      · obtain ⟨E, s, s', hE, hs, hrun, hbits, hentries⟩ := exists_start hbad hends ha hks
          fun h1 _ h2 h3 => hclash ⟨h1, h2, h3⟩
        have hc := hall E s s' hE hs hrun
        rwa [hbits, hentries] at hc
    have hone : ∀ b a k, MayFind lost (R + swapHeadOffest) disk b → Offers R disk a k →
        Consistent R b (content (area disk R a k)) := by
      intro b a k hb hk
      by_cases hnil : content (area disk R a k) = []
      · rw [hnil]
        exact consistent_nil R b
      · have hc := hselect b a [k] hb hk.copy ⟨by simpa using hk, by simp⟩ (by simpa using hnil)
        simpa [loadedFrom] using hc
    refine ⟨hone, fun b a k l hb hk hl hlt hlen => ?_⟩
    by_cases hnil : content (area disk R a l) = []
    · rw [hnil, List.append_nil]
      exact hone b a k hb hk
    · have hfull : content (area disk R a k) ≠ [] := fun h => by rw [h] at hlen; simp at hlen
      have hc := hselect b a [k, l] hb hk.copy ⟨by simpa using ⟨hk, hl⟩, by simpa using ⟨hlt, hlen⟩⟩
        (by simpa using ⟨hfull, hnil⟩)
      simpa [loadedFrom] using hc
  · intro hok E s s' hE hs hrun
    obtain ⟨hfind, a, ks, hks, hentries⟩ := scsiSwapCoreInit_takes hE hrun
    rw [hs] at hfind hks hentries
    rw [hentries]
    exact hok.consistent hfind hks

/-- A blank disk with twice the same entry in the table: index 5000, no block of 128 sectors, and a
spare block that starts in the middle of another. -/
def twinWorld : World :=
  let t : SwapTable := { SwapTable.zero with
    srcSec := 7, secSize := 128, index := 5000
    swapSec := .ofNat 64 (1000 + swapDataOffset + 1), checksum := 2568058881 }
  { World.blank with
    disk := fun x => if x = 1000 + swapTableOffset then putTable (putTable zeroSector 0 t) 1 t else zeroSector }

/-- **A start with an inconsistent end**, on a device without failures. The head is new and the bitmap
empty, and two mappings have one source and one index. -/
theorem init_inconsistent :
    let E := Env.refusing fun _ _ => false
    ∃ s', (scsiSwapCoreInit E 1000).run twinWorld = some (true, s') ∧
      s'.entries.map (fun t => (t.srcSec.toNat, t.swapSec.toNat, t.index.toNat)) =
        [(7, 1000 + swapDataOffset + 1, 5000), (7, 1000 + swapDataOffset + 1, 5000)] ∧
      s'.core.head.bitmap = 0 ∧ ¬ Consistent 1000 s'.core.head.bitmap s'.entries := by
  intro E
  have hrun : (((do
      let ok ← scsiSwapCoreInit E 1000
      let s ← get
      return (ok, decide (s.entries.map (fun t => (t.srcSec.toNat, t.swapSec.toNat, t.index.toNat)) =
        [(7, 1000 + swapDataOffset + 1, 5000), (7, 1000 + swapDataOffset + 1, 5000)] ∧
        s.core.head.bitmap = 0)) : SwapM (Bool × Bool))).run twinWorld).map Prod.fst = some (true, true) := by
    decide +kernel
  obtain ⟨s', h⟩ := run_of_result hrun
  obtain ⟨ok, s₁, h1, h2⟩ := run_bind_iff.1 h
  rw [run_get_bind] at h2
  obtain ⟨he, rfl⟩ := run_pure_iff.1 h2
  obtain ⟨rfl, hd⟩ := Prod.mk.inj he
  obtain ⟨hentries, hbits⟩ := of_decide_eq_true hd.symm
  refine ⟨s', h1, hentries, hbits, fun hc => ?_⟩
  obtain ⟨t, ht, heq⟩ : ∃ t ∈ s'.entries, (t.srcSec.toNat, t.swapSec.toNat, t.index.toNat) =
      (7, 1000 + swapDataOffset + 1, 5000) := by
    rw [← List.mem_map, hentries]
    exact List.mem_cons_self
  have hindex := (hc.placed t ht).index
  rw [(Prod.mk.inj (Prod.mk.inj heq).2).2] at hindex
  exact absurd hindex (by decide)

end ScsiSwap
