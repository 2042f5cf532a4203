import ScsiSwap.Proof.Head
import ScsiSwap.Proof.Persist

/-!
# Memory and disk agree

On a device whose reserve has no fault (`Env.SoundReserve`), between any two requests, all the driver
knows of its mappings is on the disk (`View.Stored`): both copies of the head, both copies of the
table, and the data of every mapping in its spare block. Each writer of `core.c` is responsible for
one of the three:

* `flushSwapHead_sound`, `enterCreated_stored`, `swapWrite_stored`: what each writer leaves;
* `coreWriteBlock_stored`, `coreReadBlock_stored`, `serve_stored`: rounds and requests keep the
  agreement, whatever happens to the disk below the reserve.
-/

namespace ScsiSwap

open StateOption SkipStore

variable {E : Env} {R : ℕ} {s s' : World} {v w : View} {disk disk' : ℕ → Sector}

/-! ## A reserve without a fault -/

/-- Every command for sectors of the reserve at `R` succeeds, and there is always memory. Other
sectors may fail at will. -/
structure Env.SoundReserve (E : Env) (R : ℕ) : Prop where
  read : ∀ t c, R ≤ c.lba → c.lba + c.count ≤ R + maxReservedSector → E.read t c = .ok
  write : ∀ t c buf, R ≤ c.lba → c.lba + c.count ≤ R + maxReservedSector → E.write t c buf = .ok
  memory : ∀ t, E.kmalloc t = true

namespace Env.SoundReserve

theorem writeFaults (hE : E.SoundReserve R) (hR : R + maxReservedSector ≤ 2 ^ 32) :
    E.WriteFaults R fun _ => false := by
  refine ⟨fun t k buf hk _ => ?_, fun _ _ _ _ h => absurd h (by simp)⟩
  rw [Nat.mod_eq_of_lt (by omega)]
  exact hE.write _ _ _ (Nat.le_add_right _ _) (by dsimp only; omega)

theorem readFaults (hE : E.SoundReserve R) (hR : R + maxReservedSector ≤ 2 ^ 32) :
    E.ReadFaults R fun _ => false := by
  refine ⟨fun t k hk _ => ?_, fun _ _ _ h => absurd h (by simp)⟩
  rw [Nat.mod_eq_of_lt (by omega)]
  exact hE.read _ _ (Nat.le_add_right _ _) (by dsimp only; omega)

/-- A write to the reserve succeeds, and leaves its buffer there. -/
theorem wrote (hE : E.SoundReserve R) (hR : R + maxReservedSector ≤ 2 ^ 32) {wr : Writer} {r sector n : ℕ}
    {buf : ℕ → Sector} {a : Bool} (h : (hdWriteSector E wr r sector n buf).run s = some (a, s'))
    (hlo : R ≤ sector) (hhi : sector + n ≤ R + maxReservedSector) (hn : 0 < n) (hn' : n < 2 ^ 16) :
    a = true ∧ ∀ k < n, s'.disk (sector + k) = buf k := by
  have hrun := hdWriteSector_run (E := E) (s := s) wr r sector n buf
  rw [Nat.mod_eq_of_lt (show sector < 2 ^ 32 by omega), Nat.mod_eq_of_lt hn', hE.write _ _ _ hlo hhi] at hrun
  obtain ⟨rfl, -⟩ := run_det hrun h
  refine ⟨rfl, fun k hk => ?_⟩
  rw [hdWriteSector_ok h _ (by unfold cmdRange; omega), Nat.mod_eq_of_lt (by omega), Nat.add_sub_cancel_left]

end Env.SoundReserve

theorem SwapHead.unsealed_seal (h : SwapHead) : h.unsealed.seal = h.seal := by
  unfold SwapHead.seal SwapHead.unsealed
  rw [SwapHead.crc_checksum]

/-- **The head goes out whole**, to both places. -/
theorem flushSwapHead_sound {a : Bool} (hE : E.SoundReserve R) (hR : R + maxReservedSector ≤ 2 ^ 32)
    (hs : s.geom.head = R + swapHeadOffest) (h : (flushSwapHead E).run s = some (a, s')) :
    a = true ∧ ∀ k, k = 0 ∨ k = 64 → area s'.disk R swapHeadOffest k = swapHeadEquiv s'.view.head.seal := by
  have hv := (flushSwapHead_dev h).view
  have hsec : s.core.sectorHead = R + swapHeadOffest := hs
  obtain ⟨s₁, s₂, ok, ok', h1, h2, hrun, -⟩ := flushSwapHead_run E s
  obtain ⟨rfl, rfl⟩ := run_det hrun h
  rw [hsec] at h1 h2
  rw [Nat.add_assoc] at h2
  obtain ⟨-, -, hd1⟩ := writeFaults_run (hE.writeFaults hR) (by decide) h1
  obtain ⟨rfl, -, hd2⟩ := writeFaults_run (hE.writeFaults hR) (by decide) h2
  refine ⟨rfl, ?_⟩
  rw [hv, show s.view.head.seal = s.core.head.seal from SwapHead.unsealed_seal _]
  rw [if_neg (by simp)] at hd1 hd2
  rintro k (rfl | rfl)
  · -- the second write is not over the first one
    unfold area
    rw [hd2, Function.update_of_ne fun he => absurd (addr_inj (by decide) (by decide) he) (by decide), hd1]
    exact Function.update_self ..
  · unfold area
    rw [hd2]
    exact Function.update_self ..

/-! ## What is on the disk -/

/-- The entries of the list, without the record of where each was saved. -/
def View.tables (v : View) : List SwapTable := v.list.map fun p => (v.info p).table.strip

/-- All that memory says of the mappings is on the disk, whose reserve starts at `R`. The head is in
the first of its blocks. -/
structure View.Stored (R : ℕ) (v : View) (disk : ℕ → Sector) : Prop where
  inv : v.Inv
  own : v.Own
  reserve : v.geom.reserve = R
  sector : v.geom.head = R + swapHeadOffest
  named : v.head.Named
  heads : ∀ k, k = 0 ∨ k = 64 → area disk R swapHeadOffest k = swapHeadEquiv v.head.seal
  tables : ∀ a, a = swapTableOffset ∨ a = swapTableBackupOffset → ∀ k < 32,
    content (area disk R a k) = (pack 8 v.tables []).getD k [] ∧ SlotsIn (area disk R a k) v.tables
  data : ∀ p ∈ v.list, (v.info p).data = some (blockAt disk (v.info p).table)

/-- What may change without the records of the mappings: the disk below the reserve, the log, and
the spare blocks of no mapping. -/
def View.Unused (v : View) (x : ℕ) : Prop :=
  x < v.geom.reserve ∨ LogArea v.geom x ∨
    ∃ i < 1024, (∀ p ∈ v.list, v.index p ≠ i) ∧ cmdRange (v.geom.data + 128 * i) 128 x

theorem FreeArea.unused (ho : v.Own) {x : ℕ} (h : FreeArea v x) : v.Unused x := by
  obtain ⟨i, hi, hfree, hx⟩ := h
  refine Or.inr (Or.inr ⟨i, hi, fun p hp he => ?_, hx⟩)
  rw [← he, ho.bit p hp] at hfree
  exact absurd hfree (by simp)

/-- Heads and tables are in use. -/
theorem View.Unused.not_record (hg : v.geom.Ok) {o : ℕ} (ho : o < swapDataOffset ∨ swapTableBackupOffset ≤ o)
    (ho' : o < maxReservedSector) : ¬ v.Unused ((v.geom.reserve + o) % 2 ^ 32) := by
  have hsize := hg.size
  have hdata := hg.data
  rw [Nat.mod_eq_of_lt (by omega)]
  simp only [swapDataOffset, swapTableBackupOffset, maxReservedSector, sector8M] at ho ho' hsize hdata
  rintro (hx | ⟨cap, hcap, hx⟩ | ⟨i, hi, -, hx⟩)
  · omega
  · obtain ⟨rfl, h1, h2⟩ := hg.log cap hcap
    simp only [swapLogHeadOffset, swapLogDataOffset, swapTableBackupOffset, sector8M, sector1M, maxReservedSector,
      logItemCap] at h1 h2 hx
    rcases hx with hx | ⟨slot, hs, hx⟩ <;> omega
  · unfold cmdRange at hx
    omega

/-- The spare block of a mapping, as an offset in the reserve. -/
theorem View.Inv.block (hv : v.Inv) {p : ℕ} (hp : p ∈ v.list) :
    (v.info p).table.swapSec.toNat % 2 ^ 32 = v.geom.reserve + swapDataOffset + 128 * v.index p ∧
      v.index p < 1024 := by
  have hsize := hv.geom.size
  have hdata := hv.geom.data
  have hi := (hv.info p hp).index
  have hsw := (hv.info p hp).swap
  unfold View.index
  simp only [swapDataOffset, maxReservedSector, maxSwapBlock, sector8M] at *
  omega

theorem View.Unused.not_block (hv : v.Inv) {p : ℕ} (hp : p ∈ v.list) (k : Fin 128) :
    ¬ v.Unused ((v.info p).table.swapSec.toNat % 2 ^ 32 + k) := by
  obtain ⟨hb, hi⟩ := hv.block hp
  have hsize := hv.geom.size
  have hdata := hv.geom.data
  have hk := k.isLt
  rw [hb]
  simp only [swapDataOffset, maxReservedSector, sector8M] at hsize hdata ⊢
  rintro (hx | ⟨cap, hcap, hx⟩ | ⟨i, hi, hne, hx⟩)
  · omega
  · obtain ⟨rfl, h1, h2⟩ := hv.geom.log cap hcap
    simp only [swapLogHeadOffset, swapLogDataOffset, swapTableBackupOffset, sector8M, sector1M, maxReservedSector,
      logItemCap] at h1 h2 hx
    rcases hx with hx | ⟨slot, hs, hx⟩ <;> omega
  · have := hne p hp
    unfold cmdRange at hx
    omega

namespace View.Stored

theorem size (h : v.Stored R disk) : R + maxReservedSector ≤ 2 ^ 32 := h.reserve ▸ h.inv.geom.size

theorem not_head {o : ℕ} (h : v.Stored R disk) (ho : o < maxReservedSector) (h1 : o ≠ swapHeadOffest)
    (h2 : o ≠ swapHeadOffest + 64) : ¬ HeadArea v.geom ((R + o) % 2 ^ 32) := by
  rintro (hx | hx) <;> rw [h.sector] at hx
  · exact h1 (addr_inj ho (by decide) hx)
  · rw [Nat.add_assoc] at hx
    exact h2 (addr_inj ho (by decide) hx)

/-- **New heads, and changes where nothing is stored.** -/
theorem keep (h : v.Stored R disk) (hk : v.Keep w) (hn : w.head.Named)
    (hh : ∀ k, k = 0 ∨ k = 64 → area disk' R swapHeadOffest k = swapHeadEquiv w.head.seal)
    (hd : ∀ x, ¬ v.Unused x → ¬ HeadArea v.geom x → disk' x = disk x) : w.Stored R disk' := by
  have hold : ∀ p ∈ v.list, w.info p = v.info p := fun p hp => hk.info p (h.inv.old p hp)
  have htab : w.tables = v.tables := by
    unfold View.tables
    rw [hk.list]
    exact List.map_congr_left fun p hp => by rw [hold p hp]
  refine ⟨h.inv.keep hk, h.own.keep hk, by rw [hk.geom, h.reserve], by rw [hk.geom, h.sector], hn, hh, ?_, ?_⟩
  · intro a ha k hlt
    have hsame : area disk' R a k = area disk R a k := by
      have ho : a + k < maxReservedSector ∧ (a + k < swapDataOffset ∨ swapTableBackupOffset ≤ a + k) ∧
          a + k ≠ swapHeadOffest ∧ a + k ≠ swapHeadOffest + 64 := by
        simp only [swapTableOffset, swapTableBackupOffset, swapDataOffset, swapHeadOffest,
          maxReservedSector, sector8M] at ha ⊢
        omega
      refine hd _ ?_ (h.not_head ho.1 ho.2.2.1 ho.2.2.2)
      rw [← h.reserve]
      exact Unused.not_record h.inv.geom ho.2.1 ho.1
    rw [hsame, htab]
    exact h.tables a ha k hlt
  · intro p hp
    rw [hk.list] at hp
    rw [hold p hp, h.data p hp]
    congr 1
    funext k
    refine (hd _ (Unused.not_block h.inv hp k) ?_).symm
    obtain ⟨hb, hi⟩ := h.inv.block hp
    have := h.size
    have hlt := k.isLt
    rw [hb, h.reserve]
    rintro (hx | hx) <;> rw [h.sector] at hx <;>
      simp only [swapDataOffset, swapHeadOffest, maxReservedSector, sector8M] at * <;> omega

/-- Changes where nothing is stored. -/
theorem dev (h : v.Stored R disk) (hd : ∀ x, ¬ v.Unused x → disk' x = disk x) : v.Stored R disk' := by
  refine h.keep (View.Keep.refl v) h.named (fun k hk => ?_) fun x hx _ => hd x hx
  have ho : swapHeadOffest + k < swapDataOffset ∧ swapHeadOffest + k < maxReservedSector := by
    rcases hk with rfl | rfl <;> decide
  rw [← h.heads k hk]
  refine hd _ ?_
  rw [← h.reserve]
  exact Unused.not_record h.inv.geom (Or.inl ho.1) ho.2

/-- New data for a mapping, in memory and in its block. -/
theorem setData (h : v.Stored R disk) {p : ℕ} (hp : p ∈ v.list) {d : Block}
    (hd : ∀ k : Fin 128, disk' ((v.info p).table.swapSec.toNat % 2 ^ 32 + k) = d k)
    (hf : ∀ x, ¬ MapArea v p x → disk' x = disk x) : (v.setData p d).Stored R disk' := by
  have htable : ∀ q, ((v.setData p d).info q).table.strip = (v.info q).table.strip := by
    intro q
    by_cases hq : q = p
    · subst hq
      unfold View.setData
      rw [View.setInfo_info_self]
      rfl
    · exact congrArg (fun i => i.table.strip) (View.setInfo_info_of_ne _ _ hq)
  have htab : (v.setData p d).tables = v.tables := List.map_congr_left fun q _ => htable q
  obtain ⟨hb, hi⟩ := h.inv.block hp
  have hsize := h.size
  have hmap : ∀ x, MapArea v p x ↔ R + swapDataOffset + 128 * v.index p ≤ x ∧
      x < R + swapDataOffset + 128 * v.index p + 128 := by
    intro x
    unfold MapArea cmdRange
    rw [hb, h.reserve, (h.inv.info p hp).size]
    rfl
  -- no other record is in the block
  have hrec : ∀ o, o < swapDataOffset ∨ swapTableBackupOffset ≤ o → o < maxReservedSector →
      disk' ((R + o) % 2 ^ 32) = disk ((R + o) % 2 ^ 32) := by
    intro o ho ho'
    refine hf _ fun hx => ?_
    rw [hmap, Nat.mod_eq_of_lt (by omega)] at hx
    simp only [swapDataOffset, swapTableBackupOffset, maxReservedSector, sector8M] at hx ho ho' hsize
    omega
  refine ⟨h.inv.setData hp d, h.own.setData (BitsLe.refl _) p d, h.reserve, h.sector, h.named, ?_, ?_, ?_⟩
  · intro k hk
    rw [show (v.setData p d).head = v.head from rfl, ← h.heads k hk]
    refine hrec _ (Or.inl ?_) ?_ <;> rcases hk with rfl | rfl <;> decide
  · intro a ha k hk
    have hsame : area disk' R a k = area disk R a k := by
      refine hrec _ ?_ ?_ <;>
        simp only [swapTableOffset, swapTableBackupOffset, swapDataOffset, maxReservedSector, sector8M]
          at ha ⊢ <;> omega
    rw [hsame, htab]
    exact h.tables a ha k hk
  · intro q hq
    by_cases hqp : q = p
    · subst hqp
      unfold View.setData
      rw [View.setInfo_info_self]
      exact congrArg some (funext fun k => (hd k).symm)
    · have hinfo : (v.setData p d).info q = v.info q := View.setInfo_info_of_ne _ _ hqp
      obtain ⟨hbq, hiq⟩ := h.inv.block hq
      have hne : v.index q ≠ v.index p := fun he => hqp (h.own.inj q hq p hp he)
      rw [hinfo, h.data q hq]
      refine congrArg some (funext fun k => (hf _ fun hx => ?_).symm)
      have hk := k.isLt
      rw [hmap, hbq, h.reserve] at hx
      omega

/-- **A mapping enters the list**: its data is in its block, and the table goes out again. -/
theorem enter (h : w.Stored R disk) {p : ℕ} (hinv : (w.enter p).Inv) (hown : (w.enter p).Own)
    (hdata : (w.info p).data = some (blockAt disk (w.info p).table)) {bs : List Sector}
    (hbs : bs.map content = pack 8 (w.enter p).tables []) (hin : ∀ b ∈ bs, SlotsIn b (w.enter p).tables)
    (htab : ∀ a, a = swapTableOffset ∨ a = swapTableBackupOffset → ∀ k < 32,
      area disk' R a k = bs.getD k (area disk R a k))
    (hf : ∀ x, ¬ TableArea w.geom (34 + w.list.length) x → disk' x = disk x) : (w.enter p).Stored R disk' := by
  have hroom := h.inv.room
  have hsize := h.size
  have htables : (w.enter p).tables = w.tables ++ [(w.info p).table.strip] := List.map_append ..
  -- outside the two tables nothing has changed
  have hsame : ∀ o, o < swapTableOffset ∨ swapDataOffset ≤ o ∧ o < swapTableBackupOffset →
      disk' (R + o) = disk (R + o) := by
    intro o ho
    refine hf _ ?_
    rintro (⟨k, hk, hx⟩ | ⟨k, hk, hx⟩)
    · rw [h.inv.geom.table, h.reserve] at hx
      simp only [swapTableOffset, swapDataOffset, swapTableBackupOffset, maxReservedSector, sector8M,
        maxSwapBlockForUse] at *
      omega
    · rw [h.reserve] at hx
      simp only [swapTableOffset, swapDataOffset, swapTableBackupOffset, maxReservedSector, sector8M,
        maxSwapBlockForUse] at *
      omega
  have hblock : ∀ q, q ∈ w.list ∨ q = p → blockAt disk' (w.info q).table = blockAt disk (w.info q).table := by
    intro q hq
    have hq' : q ∈ (w.enter p).list := by
      rcases hq with hq | rfl
      · exact List.mem_append_left _ hq
      · exact List.mem_append_right _ (List.mem_singleton_self _)
    obtain ⟨hb, hi⟩ := hinv.block hq'
    have hi' : w.index q < 1024 := hi
    have hb' : (w.info q).table.swapSec.toNat % 2 ^ 32 = R + swapDataOffset + 128 * w.index q := by
      rw [← h.reserve]
      exact hb
    funext k
    have hk := k.isLt
    have hx := hsame (swapDataOffset + 128 * w.index q + k) (Or.inr (by
      simp only [swapDataOffset, swapTableBackupOffset, maxReservedSector, sector8M]
      omega))
    unfold blockAt
    rw [hb', Nat.add_assoc, Nat.add_assoc, ← Nat.add_assoc swapDataOffset, hx]
  refine ⟨hinv, hown, h.reserve, h.sector, h.named, ?_, ?_, ?_⟩
  · intro k hk
    have ho : swapHeadOffest + k < swapTableOffset := by rcases hk with rfl | rfl <;> decide
    have hx := hsame (swapHeadOffest + k) (Or.inl ho)
    rw [show (w.enter p).head = w.head from rfl, ← h.heads k hk]
    unfold area
    rw [Nat.mod_eq_of_lt (by simp only [swapTableOffset, sector8M, maxReservedSector] at ho hsize; omega)]
    exact hx
  · intro a ha k hk
    rw [htab a ha k hk]
    rcases Nat.lt_or_ge k bs.length with hlt | hge
    · -- a sector that was written
      have hlen : k < (pack 8 (w.enter p).tables []).length := by rw [← hbs, List.length_map]; exact hlt
      rw [List.getD_eq_getElem _ _ hlt, List.getD_eq_getElem _ _ hlen]
      refine ⟨?_, hin _ (List.getElem_mem hlt)⟩
      simp only [← hbs, List.getElem_map]
    · -- one behind the table: no entry, before and after
      have hlen : (pack 8 (w.enter p).tables []).length ≤ k := by rw [← hbs, List.length_map]; exact hge
      have hold : (pack 8 w.tables []).length ≤ k := by
        rw [htables] at hlen
        exact (length_pack_append _ _ _).trans hlen
      obtain ⟨hc, hs⟩ := h.tables a ha k hk
      rw [List.getD_eq_default _ _ hge, List.getD_eq_default _ _ hlen, hc, List.getD_eq_default _ _ hold]
      refine ⟨rfl, hs.mono fun t ht => ?_⟩
      rw [htables]
      exact List.mem_append_left _ ht
  · intro q hq
    have hq' : q ∈ w.list ∨ q = p := by
      rcases List.mem_append.1 (show q ∈ w.list ++ [p] from hq) with hq | hq
      · exact Or.inl hq
      · exact Or.inr (List.mem_singleton.1 hq)
    show (w.info q).data = some (blockAt disk' (w.info q).table)
    rw [hblock q hq']
    rcases hq' with hq | rfl
    · exact h.data q hq
    · exact hdata

end View.Stored

/-! ## Making a mapping -/

theorem swapCheckBlock_sound {a : Bool} {secStart : ℕ} (hE : E.SoundReserve R)
    (hR : R + maxReservedSector ≤ 2 ^ 32) (hlo : R ≤ secStart) (hhi : secStart + 128 ≤ R + maxReservedSector)
    (h : (swapCheckBlock E secStart).run s = some (a, s')) : a = true := by
  unfold swapCheckBlock at h
  obtain ⟨k, s₁, h1, h2⟩ := run_bind_iff.1 h
  obtain ⟨rfl, -⟩ := run_det (kmalloc_run E s) h1
  rw [hE.memory, if_pos rfl] at h2
  exact (hE.wrote hR h2 hlo hhi (by decide) (by decide)).1

/-- The first free block can be written, so the allocator fails only if there is none. -/
theorem swapAllocNewBlock_sound (hE : E.SoundReserve R) (hg : s.geom.Ok) (hr : s.geom.reserve = R)
    (h : (swapAllocNewBlock E).run s = some (none, s')) : s' = s := by
  unfold swapAllocNewBlock at h
  rw [run_get_bind] at h
  split at h
  · exact (run_pure_iff.1 h).2
  · rename_i i hi
    obtain ⟨hlt, -⟩ := firstZeroBit_some hi
    have hdata : s.core.sectorData = R + swapDataOffset := hr ▸ hg.data
    have hsize : R + maxReservedSector ≤ 2 ^ 32 := hr ▸ hg.size
    unfold swapAllocLoop at h
    rw [run_get_bind, hdata] at h
    obtain ⟨ok, s₁, h1, h2⟩ := run_bind_iff.1 h
    have hok := swapCheckBlock_sound hE hsize (by omega)
      (by simp only [swapDataOffset, sector8M, maxReservedSector]; omega) h1
    subst hok
    rw [if_pos rfl, run_modify_bind] at h2
    exact absurd (run_pure_iff.1 h2).1 (by simp)

theorem swapCreate'_sound {p src : ℕ} {off len : ℤ} (hE : E.SoundReserve R) (hg : s.geom.Ok)
    (hr : s.geom.reserve = R) (h : (swapCreate' E p src off len).run s = some (false, s')) : s' = s := by
  unfold swapCreate' at h
  obtain ⟨a, s₁, h1, h2⟩ := run_bind_iff.1 h
  cases a with
  | none =>
    obtain ⟨-, rfl⟩ := run_pure_iff.1 h2
    exact swapAllocNewBlock_sound hE hg hr h1
  | some index =>
    obtain ⟨u, s₂, h3, h4⟩ := run_bind_iff.1 h2
    obtain ⟨u', s₃, h5, h6⟩ := run_bind_iff.1 h4
    rw [run_modify_bind] at h6
    exact absurd (run_pure_iff.1 h6).1 (by simp)

/-- The head in memory, on the disk. -/
structure World.HeadStored (R : ℕ) (s : World) : Prop where
  named : s.view.head.Named
  heads : ∀ k, k = 0 ∨ k = 64 → area s.disk R swapHeadOffest k = swapHeadEquiv s.view.head.seal

theorem World.HeadStored.dev {A : ℕ → Prop} (h : s.HeadStored R) (hd : Dev A s s')
    (hA : ∀ k, k = 0 ∨ k = 64 → ¬ A ((R + (swapHeadOffest + k)) % 2 ^ 32)) : s'.HeadStored R := by
  refine ⟨by rw [hd.view]; exact h.named, fun k hk => ?_⟩
  rw [hd.view, ← h.heads k hk]
  exact hd.disk _ (hA k hk)

theorem View.Stored.head (h : s.view.Stored R s.disk) : s.HeadStored R := ⟨h.named, h.heads⟩

/-- `swap_create` has flushed the head, or not changed it. -/
theorem swapCreateTry_head {start count : ℕ} {a : ℕ ⊕ LogCreateFailed} (hE : E.SoundReserve R)
    (hs : s.view.Stored R s.disk) (h : (swapCreateTry E start count).run s = some (a, s')) : s'.HeadStored R := by
  unfold swapCreateTry at h
  rw [run_get_bind] at h
  split at h
  · obtain ⟨-, rfl⟩ := run_pure_iff.1 h
    exact hs.head
  obtain ⟨o, s₁, h1, h2⟩ := run_bind_iff.1 h
  rcases swapAllocInfo_spec (A := fun _ => False) h1 with ⟨rfl, hd⟩ | ⟨rfl, hupd⟩
  · obtain ⟨-, rfl⟩ := run_pure_iff.1 h2
    exact hs.head.dev hd fun _ _ => id
  have hg1 : s₁.geom = s.view.geom := hupd.geom
  have hhead : s₁.view.head = s.view.head := by rw [hupd.view]; rfl
  obtain ⟨ok, s₂, h3, h4⟩ := run_bind_iff.1 h2
  cases ok with
  | false =>
    obtain ⟨-, rfl⟩ := run_pure_iff.1 h4
    obtain rfl := swapCreate'_sound hE (hg1 ▸ hs.inv.geom) (hg1 ▸ hs.reserve) h3
    refine ⟨hhead ▸ hs.named, fun k hk => ?_⟩
    rw [hhead, ← hs.heads k hk]
    exact hupd.disk _ id
  | true =>
    rw [if_pos rfl] at h4
    obtain ⟨ok, s₃, h5, h6⟩ := run_bind_iff.1 h4
    have hp : s₁.view.info s.brk = ⟨SwapTable.zero, some fun _ => zeroSector⟩ := by
      rw [hupd.view]
      exact View.setInfo_info_self ..
    have hal := swapSectorAlign_le start
    have hlt := lt_swapSectorAlign_add start
    have e1 : s32 ((start : ℤ) - swapSectorAlign start) = ((start - swapSectorAlign start : ℕ) : ℤ) := by
      rw [← Nat.cast_sub hal]
      exact s32_ofNat (by omega)
    rw [e1] at h3
    obtain ⟨-, b, index, d, hc, -⟩ := (swapCreate'_spec h3 hp).resolve_left (by simp)
    have hg2 : s₂.geom = s.view.geom := hc.upd.geom.trans hg1
    obtain ⟨rfl, hheads⟩ := flushSwapHead_sound hE hs.size (by rw [hg2]; exact hs.sector) h5
    obtain ⟨-, rfl⟩ := run_pure_iff.1 h6
    refine ⟨?_, hheads⟩
    have hv : s₂.view.head = { s₁.view.head with bitmap := b } := congrArg View.head hc.upd.view
    rw [(flushSwapHead_dev h5).view, hv, hhead]
    exact ⟨hs.named.head, hs.named.status⟩

theorem CreateResult.keep {start count : ℕ} {made : Bool} (h : CreateResult E s s' start count made) :
    s.view.Keep s'.view ∧ ∀ x, ¬ CreateArea s.view x → s'.disk x = s.disk x := by
  rcases h with ⟨-, w, hk, hu⟩ | ⟨-, b, index, d, hm, -⟩
  · exact ⟨hu.view ▸ hk, hu.disk⟩
  · exact ⟨hm.entry.1, hm.upd.disk⟩

theorem not_createArea (ho : v.Own) {x : ℕ} (h1 : ¬ v.Unused x) (h2 : ¬ HeadArea v.geom x) :
    ¬ CreateArea v x := by
  rintro (hx | hx | hx)
  · exact h1 (hx.unused ho)
  · exact h2 hx
  · exact h1 (Or.inr (Or.inl hx))

/-- **A creation**, whether it comes to a mapping or not. -/
theorem repairAndCreate_stored {start count : ℕ} {a : Option ℕ} (hE : E.SoundReserve R)
    (hs : s.view.Stored R s.disk)
    (h : (repairAndCreate E start count).run s = some (a, s')) : s'.view.Stored R s'.disk := by
  obtain ⟨hres, -⟩ := repairAndCreate_spec h
  obtain ⟨hk, hframe⟩ := hres.keep
  have hhead : s'.HeadStored R := by
    unfold repairAndCreate at h
    obtain ⟨x, s₁, h1, h2⟩ := run_bind_iff.1 h
    have hd := swapRepairSuccessiveSectors_dev (A := fun _ => False) h1
    have hs₁ : s₁.view.Stored R s₁.disk := hd.view ▸ hs.dev fun x _ => hd.disk x id
    rw [run_get_bind] at h2
    split at h2
    · obtain ⟨-, rfl⟩ := run_pure_iff.1 h2
      exact hs₁.head
    unfold swapCreate at h2
    obtain ⟨r, s₂, h3, h4⟩ := run_bind_iff.1 h2
    have hh := swapCreateTry_head hE hs₁ h3
    have hg : s₂.geom = s.view.geom := by
      rw [show s₂.geom = s₂.view.geom from rfl, (swapCreateTry_spec h3).1.keep.1.geom, hd.view]
    -- the entry in the log is not over the head
    have hlog : ∀ k, k = 0 ∨ k = 64 → ¬ LogArea s₂.geom ((R + (swapHeadOffest + k)) % 2 ^ 32) := by
      intro k hk hx
      have ho : swapHeadOffest + k < swapDataOffset ∧ swapHeadOffest + k < maxReservedSector := by
        rcases hk with rfl | rfl <;> decide
      rw [hg] at hx
      rw [← hs.reserve] at hx
      exact View.Unused.not_record hs.inv.geom (Or.inl ho.1) ho.2 (Or.inr (Or.inl hx))
    cases r with
    | inr e =>
      obtain ⟨x, s₃, h5, h6⟩ := run_bind_iff.1 h4
      obtain ⟨-, rfl⟩ := run_pure_iff.1 h6
      exact hh.dev (scsiSwapLogPush_dev h5) hlog
    | inl p =>
      dsimp only at h4
      rw [run_get_bind] at h4
      obtain ⟨x, s₃, h5, h6⟩ := run_bind_iff.1 h4
      obtain ⟨-, rfl⟩ := run_pure_iff.1 h6
      exact hh.dev (scsiSwapLogPush_dev h5) hlog
  exact hs.keep hk hhead.named hhead.heads fun x h1 h2 => hframe x (not_createArea hs.own h1 h2)

/-! ## Data -/

/-- **The data of a mapping goes out whole.** -/
theorem flushSwapInfoData_sound {p : ℕ} {a : Bool} (hE : E.SoundReserve R) (hg : s.view.geom.Ok)
    (hr : s.view.geom.reserve = R) (hp : (s.view.info p).Ok s.view.geom)
    (h : (flushSwapInfoData E p).run s = some (a, s')) :
    a = true ∧ ∀ d, (s.view.info p).data = some d →
      ∀ k : Fin 128, s'.disk ((s.view.info p).table.swapSec.toNat % 2 ^ 32 + k) = d k := by
  have hsize : R + maxReservedSector ≤ 2 ^ 32 := hr ▸ hg.size
  have hsec : (s.heap p).table.swapSec.toNat = s.view.geom.data + 128 * (s.heap p).table.index.toNat := hp.swap
  have hn : (s.heap p).table.secSize.toNat = 128 := congrArg BitVec.toNat hp.size
  have hi : (s.heap p).table.index.toNat < maxSwapBlock := hp.index
  obtain ⟨d, hd⟩ := Option.isSome_iff_exists.1 hp.data
  have hd' : (s.heap p).data = some d := hd
  unfold flushSwapInfoData at h
  rw [run_get_bind] at h
  dsimp only at h
  rw [hd', hn] at h
  have hlo : R ≤ (s.heap p).table.swapSec.toNat := by rw [hsec, hg.data, hr]; omega
  have hhi : (s.heap p).table.swapSec.toNat + 128 ≤ R + maxReservedSector := by
    rw [hsec, hg.data, hr]
    simp only [swapDataOffset, maxSwapBlock, sector8M, maxReservedSector] at hi ⊢
    omega
  obtain ⟨rfl, hw⟩ := hE.wrote hsize h hlo hhi (by decide) (by decide)
  refine ⟨rfl, fun d' he k => ?_⟩
  obtain rfl : d' = d := Option.some.inj (he.symm.trans hd)
  have hmod : (s.view.info p).table.swapSec.toNat % 2 ^ 32 = (s.heap p).table.swapSec.toNat :=
    Nat.mod_eq_of_lt (show (s.heap p).table.swapSec.toNat < 2 ^ 32 by omega)
  rw [hmod, hw k k.isLt, blockBuf_val]

/-- **A write into a mapping** succeeds at once, in memory and in its block. -/
theorem swapWrite_sound {p start count : ℕ} {buf : ℕ → Sector} {r : Ret} (hE : E.SoundReserve R)
    (hg : s.view.geom.Ok) (hr : s.view.geom.reserve = R) (hp : (s.view.info p).Ok s.view.geom)
    (h : (swapWrite E p start count buf).run s = some (r, s')) :
    r = .ok ∧ ∃ d, s'.view = s.view.setData p d ∧
      (∀ k : Fin 128, s'.disk ((s.view.info p).table.swapSec.toNat % 2 ^ 32 + k) = d k) ∧
      ∀ x, ¬ MapArea s.view p x → s'.disk x = s.disk x := by
  unfold swapWrite at h
  obtain ⟨ok, s₁, h1, h2⟩ := run_bind_iff.1 h
  obtain ⟨d, hd, hu⟩ := swapWrite'_spec h1
  unfold swapWrite' at h1
  rw [run_get_bind] at h1
  have hd' : (s.heap p).data = some d := hd
  rw [hd'] at h1
  dsimp only at h1
  rw [run_set_bind] at h1
  set e := copyIn d (dataOffset start (u32 (swapSectorAlign start))) count buf
  set s₀ := s.setInfo p { s.heap p with data := some e }
  have hv : s₀.view = s.view.setData p e := ((Dev.refl (A := fun _ => False) s).setData p e).view
  have hinfo : s₀.view.info p = SwapInfo.strip ⟨(s.view.info p).table, some e⟩ := by
    rw [hv]
    exact View.setInfo_info_self ..
  have hp₀ : (s₀.view.info p).Ok s₀.view.geom := by
    rw [hinfo, hv]
    exact hp.setData e
  obtain ⟨rfl, hblock⟩ := flushSwapInfoData_sound hE (hv ▸ hg) (by rw [hv]; exact hr) hp₀ h1
  rw [if_pos rfl] at h2
  obtain ⟨rfl, rfl⟩ := run_pure_iff.1 h2
  refine ⟨rfl, e, hu.view, fun k => ?_, hu.disk⟩
  have hk := hblock e (by rw [hinfo]; rfl) k
  rw [hinfo] at hk
  exact hk

/-! ## A new mapping enters the list -/

section created

variable {s₁ s₂ s₃ : World} {src index : ℕ} {b : BitVec 1024} {d d' : Block}

/-- The new mapping has its data; it is not in the list yet. -/
theorem View.Stored.made (h₁ : s₁.view.Stored R s₁.disk) (h₂ : s₂.view.Stored R s₂.disk)
    (hm : Made (CreateArea s₁.view) s₁ s₂ src b index d)
    (hv : s₃.view = (s₁.view.setBitmap b).alloc ⟨entryFor s₁.view.geom.data src index, some d'⟩)
    (hf : ∀ x, ¬ MapArea s₂.view s₁.brk x → s₃.disk x = s₂.disk x) : s₃.view.Stored R s₃.disk := by
  have hg := h₁.inv.geom
  have hsize := h₁.size
  obtain ⟨hi, hfree, -⟩ := hm.fresh
  have hk : s₁.view.Keep s₃.view := by
    rw [hv]
    exact ((View.Keep.refl _).setBitmap hm.bits).alloc _
  have hhead : s₃.view.head = s₂.view.head := by
    rw [hv, hm.upd.view]
    rfl
  -- its block is one that was free
  have hmap : ∀ x, MapArea s₂.view s₁.brk x → FreeArea s₁.view x := by
    intro x hx
    refine ⟨index, hi, hfree, ?_⟩
    unfold MapArea at hx
    rw [hm.entry.2] at hx
    have hsw : (BitVec.ofNat 64 (s₁.view.geom.data + 128 * index)).toNat = s₁.view.geom.data + 128 * index := by
      have := hg.size
      have := hg.data
      simp only [swapDataOffset, maxReservedSector, sector8M] at *
      rw [BitVec.toNat_ofNat, Nat.mod_eq_of_lt (by omega)]
    rw [← hsw]
    exact hx
  refine h₁.keep hk (hhead ▸ h₂.named) (fun k hk => ?_) fun x h1 h2 => ?_
  · have ho : swapHeadOffest + k < swapDataOffset ∧ swapHeadOffest + k < maxReservedSector := by
      rcases hk with rfl | rfl <;> decide
    rw [hhead, ← h₂.heads k hk]
    refine hf _ fun hx => ?_
    have hun := (hmap _ hx).unused h₁.own
    rw [← h₁.reserve] at hun
    exact View.Unused.not_record hg (Or.inl ho.1) ho.2 hun
  · rw [hf x fun hx => h1 ((hmap x hx).unused h₁.own)]
    exact hm.upd.disk x (not_createArea h₁.own h1 h2)

/-- **The mapping enters the list and the table.** -/
theorem enterCreated_stored {ok : Bool} {v : View} {p : ℕ} (hE : E.SoundReserve R)
    (hv : s.view.enter p = v) (hinv : v.Inv) (hown : v.Own) (hs : s.view.Stored R s.disk)
    (hdata : (s.view.info p).data = some (blockAt s.disk (s.view.info p).table))
    (h : (enterCreated E p).run s = some (ok, s')) : s'.view.Stored R s'.disk := by
  subst hv
  obtain ⟨-, hupd⟩ := enterCreated_spec h
  unfold enterCreated at h
  rw [run_modify_bind] at h
  obtain ⟨ok', s₁, h1, h2⟩ := run_bind_iff.1 h
  obtain ⟨rfl, -⟩ := flushSwapInfoTable_dev h1
  rw [if_pos rfl, run_modify_bind] at h2
  obtain ⟨-, rfl⟩ := run_pure_iff.1 h2
  have hg := hs.inv.geom
  have hval : ∀ q ∈ s.core.infoList ++ [p], (s.heap q).table.valid = true := by
    intro q hq
    have hok := hinv.info q hq
    rw [← SwapTable.strip_valid]
    unfold SwapTable.valid
    rw [decide_eq_true_iff]
    exact ⟨hok.size, hok.crc.symm⟩
  obtain ⟨-, bs, hbs, hin, hm, hb⟩ := flushSwapInfoTable_area (hE.writeFaults hs.size) h1 (by
      show s.core.sectorTable = _
      rw [← hs.reserve]
      exact hg.table) hs.reserve hval hinv.room
  rw [hupd.view]
  refine hs.enter hinv hown hdata hbs hin ?_ hupd.disk
  rintro a (rfl | rfl) k hk
  · exact (hm k (by omega)).trans (writeOut_good (fun _ => rfl) hk _ _)
  · exact (hb k (by omega)).trans (writeOut_good (fun _ => rfl) hk _ _)

/-- The same, for a mapping made from `s₁` on. -/
theorem View.Stored.created {g : Seg} {ok : Bool} (hE : E.SoundReserve R) (h₁ : s₁.view.Stored R s₁.disk)
    (h₂ : s₂.view.Stored R s₂.disk) (hgo : g.Ok R) (hn : s₁.view.find g.bStart = none)
    (hm : Made (CreateArea s₁.view) s₁ s₂ (swapSectorAlign g.sStart) b index d)
    (hv : s₃.view = (s₁.view.setBitmap b).alloc
      ⟨entryFor s₁.view.geom.data (swapSectorAlign g.sStart) index, some d'⟩)
    (hblock : ∀ k : Fin 128, s₃.disk ((s₂.view.info s₁.brk).table.swapSec.toNat % 2 ^ 32 + k) = d' k)
    (hf : ∀ x, ¬ MapArea s₂.view s₁.brk x → s₃.disk x = s₂.disk x)
    (he : (enterCreated E s₁.brk).run s₃ = some (ok, s')) : s'.view.Stored R s'.disk := by
  have h₃ := h₁.made h₂ hm hv hf
  obtain ⟨hi, hfree, hbit⟩ := hm.fresh
  have hsrc : swapSectorAlign g.sStart < s₁.view.geom.reserve := by
    rw [hgo.align, h₁.reserve]
    exact hgo.src
  refine enterCreated_stored (v := s₁.view.create b (swapSectorAlign g.sStart) index d') hE
    (by rw [hv]; rfl) ?_ ?_ h₃ ?_ he
  · exact h₁.inv.created hm.bits hm.room hi hsrc (swapSectorAlign_mod _) (hgo.align ▸ hn)
  · exact h₁.own.create hm.bits hi hfree hbit d'
  · have hinfo : s₃.view.info s₁.brk = SwapInfo.strip
        ⟨entryFor s₁.view.geom.data (swapSectorAlign g.sStart) index, some d'⟩ := by
      rw [hv]
      exact alloc_info_self ..
    have hsec : (s₂.view.info s₁.brk).table.swapSec = (s₃.view.info s₁.brk).table.swapSec := by
      rw [hm.entry.2, hinfo]
      rfl
    rw [hsec] at hblock
    have hd : (s₃.view.info s₁.brk).data = some d' := by
      rw [hinfo]
      rfl
    rw [hd]
    exact congrArg some (funext fun k => (hblock k).symm)

end created

/-! ## Rounds -/

theorem View.Stored.userWrite {g : Seg} {A : ℕ → Prop} (h : s.view.Stored R s.disk) (hg : g.Ok R)
    (hd : Dev A s s') (hA : ∀ x, A x → g.area x) : s'.view.Stored R s'.disk := by
  rw [hd.view]
  refine h.dev fun x hx => hd.disk x fun ha => hx (Or.inl ?_)
  have := (hA x ha).2
  have := hg.user
  rw [h.reserve]
  omega

/-- **A round of a write** keeps the agreement. -/
theorem coreWriteBlock_stored {g : Seg} {bad : ℤ} {buf : ℕ → Sector} {r : Ret} (hE : E.SoundReserve R)
    (hs : s.view.Stored R s.disk) (hg : g.Ok R) (h : (coreWriteBlock E bad g buf).run s = some (r, s')) :
    s'.view.Stored R s'.disk := by
  have hgs : g.Ok s.view.geom.reserve := hs.reserve.symm ▸ hg
  unfold coreWriteBlock at h
  rw [run_get_bind] at h
  dsimp only at h
  rw [find_view] at h
  split at h
  · -- mapped
    rename_i p hp
    obtain ⟨r', s₁, h1, h2⟩ := run_bind_iff.1 h
    have hmem := (View.find_some hp).1
    obtain ⟨rfl, d, hv, hb, hf⟩ := swapWrite_sound hE hs.inv.geom hs.reserve (hs.inv.info p hmem) h1
    obtain ⟨-, rfl⟩ := run_pure_iff.1 h2
    rw [hv]
    exact hs.setData hmem hb hf
  rename_i hn
  obtain ⟨done, s₁, h1, h2⟩ := run_bind_iff.1 h
  obtain ⟨hd1, -⟩ := directWrite_spec h1
  have hs₁ := hs.userWrite hg (hd1.within ⟨hs.inv, hgs⟩) fun _ hx => hx
  rw [run_get_bind] at h2
  cases done with
  | true =>
    obtain ⟨-, rfl⟩ := run_pure_iff.1 h2
    exact hs₁
  | false =>
    rw [if_neg (by simp)] at h2
    split at h2
    · obtain ⟨-, rfl⟩ := run_pure_iff.1 h2
      exact hs₁
    obtain ⟨o, s₂, h3, h4⟩ := run_bind_iff.1 h2
    have hs₂ := repairAndCreate_stored hE hs₁ h3
    obtain ⟨hres, hbrk⟩ := repairAndCreate_spec h3
    cases o with
    | none =>
      obtain ⟨-, rfl⟩ := run_pure_iff.1 h4
      exact hs₂
    | some p =>
      -- a new mapping, with the segment in it
      obtain ⟨-, b, index, d, hm, -⟩ := hres.resolve_left (by simp)
      obtain rfl := hbrk p rfl
      dsimp only at h4
      obtain ⟨r', s₃, h5, h6⟩ := run_bind_iff.1 h4
      have hplaced := hm.fit (g := g) ⟨hs₁.inv, hs₁.reserve.symm ▸ hg⟩
      obtain ⟨rfl, d', hv, hb, hf⟩ := swapWrite_sound hE hs₂.inv.geom hs₂.reserve hplaced.info h5
      obtain ⟨ok, s₄, h7, h8⟩ := run_bind_iff.1 h6
      have hv₃ : s₃.view = (s₁.view.setBitmap b).alloc
          ⟨entryFor s₁.view.geom.data (swapSectorAlign g.sStart) index, some d'⟩ := by
        rw [hv, hm.upd.view]
        exact View.alloc_setData ..
      have hs₄ := View.Stored.created hE hs₁ hs₂ hg (by rw [hd1.view]; exact hn) hm hv₃ hb hf h7
      obtain ⟨rfl, -⟩ := enterCreated_spec h7
      rw [if_pos rfl] at h8
      split at h8 <;> obtain ⟨-, rfl⟩ := run_pure_iff.1 h8 <;> exact hs₄

/-- **A round of a read** keeps the agreement. -/
theorem coreReadBlock_stored {g : Seg} {bad : ℤ} {buf : ℕ → Sector} {r : Ret × (ℕ → Sector)}
    (hE : E.SoundReserve R)
    (hs : s.view.Stored R s.disk) (hg : g.Ok R) (h : (coreReadBlock E bad g buf).run s = some (r, s')) :
    s'.view.Stored R s'.disk := by
  unfold coreReadBlock at h
  rw [run_get_bind, find_view] at h
  split at h
  · rename_i p hp
    obtain ⟨buf', s₁, h1, h2⟩ := run_bind_iff.1 h
    obtain ⟨-, rfl⟩ := run_pure_iff.1 h2
    unfold swapRead' at h1
    rw [run_get_bind] at h1
    split at h1
    · exact (run_oops h1).elim
    · obtain ⟨-, rfl⟩ := run_pure_iff.1 h1
      exact hs
  rename_i hn
  obtain ⟨⟨done, buf₁⟩, s₁, h1, h2⟩ := run_bind_iff.1 h
  obtain ⟨hd1, -⟩ := directRead_spec h1
  have hs₁ := hs.userWrite hg hd1 fun _ => False.elim
  rw [run_get_bind] at h2
  cases done with
  | true =>
    obtain ⟨-, rfl⟩ := run_pure_iff.1 h2
    exact hs₁
  | false =>
    dsimp only at h2
    rw [if_neg (by simp)] at h2
    split at h2
    · obtain ⟨-, rfl⟩ := run_pure_iff.1 h2
      exact hs₁
    obtain ⟨o, s₂, h3, h4⟩ := run_bind_iff.1 h2
    have hs₂ := repairAndCreate_stored hE hs₁ h3
    obtain ⟨hres, hbrk⟩ := repairAndCreate_spec h3
    cases o with
    | none =>
      obtain ⟨-, rfl⟩ := run_pure_iff.1 h4
      exact hs₂
    | some p =>
      -- a new mapping, which is saved as it is
      obtain ⟨-, b, index, d, hm, -⟩ := hres.resolve_left (by simp)
      obtain rfl := hbrk p rfl
      have hdata : (s₂.heap s₁.brk).data = some d := congrArg SwapInfo.data hm.entry.2
      dsimp only at h4
      rw [run_get_bind, hdata] at h4
      dsimp only at h4
      obtain ⟨ok, s₃, h5, h6⟩ := run_bind_iff.1 h4
      have hplaced := hm.fit (g := g) ⟨hs₁.inv, hs₁.reserve.symm ▸ hg⟩
      have hf := flushSwapInfoData_dev h5
      obtain ⟨rfl, hb⟩ := flushSwapInfoData_sound hE hs₂.inv.geom hs₂.reserve hplaced.info h5
      rw [if_pos rfl] at h6
      obtain ⟨ok, s₄, h7, h8⟩ := run_bind_iff.1 h6
      have hv₃ : s₃.view = (s₁.view.setBitmap b).alloc
          ⟨entryFor s₁.view.geom.data (swapSectorAlign g.sStart) index, some d⟩ := by
        rw [hf.view, hm.upd.view]
      have hs₄ := View.Stored.created hE hs₁ hs₂ hg (by rw [hd1.view]; exact hn) hm hv₃ (hb d hdata) hf.disk h7
      obtain ⟨rfl, -⟩ := enterCreated_spec h7
      obtain ⟨-, rfl⟩ := run_pure_iff.1 h8
      exact hs₄

theorem stored_roundRel : RoundRel fun s s' => s.view.Stored R s.disk → s'.view.Stored R s'.disk :=
  ⟨fun _ h => h, fun _ _ _ h1 h2 h => h2 (h1 h), fun _ _ h => h⟩

/-- **Requests keep memory and disk in agreement**, whatever happens below the reserve. -/
theorem serve_stored {o : Request} {a : Reply} (hE : E.SoundReserve R) (hR : R + maxReservedSector < 2 ^ 31)
    (ho : o.start + o.count ≤ R) (hs : s.view.Stored R s.disk) (h : (o.serve E).run s = some (a, s')) :
    s'.view.Stored R s'.disk := by
  have hfit := fits_of_small ho hR
  have hseg : ∀ g ∈ visited o.start o.count, g.Ok R := by
    intro g hg
    rw [visited_eq hfit.le hfit.count] at hg
    obtain ⟨i, hi, rfl⟩ := mem_segments.1 hg
    exact segment_ok hfit hi
  refine serve_rounds stored_roundRel h ?_ ?_ hs
  · intro _ g t r t' hg hb ht
    exact coreWriteBlock_stored hE ht (hseg g hg.mem) hb
  · intro g hg buf t r t' hb ht
    exact coreReadBlock_stored hE ht (hseg g hg) hb

end ScsiSwap
