import ScsiSwap.Proof.Rounds
import ScsiSwap.Proof.Start

/-!
# Who owns a spare block

In `View.Own` every listed mapping has a spare block of its own, and the bit of that block is
set, so that `_swap_alloc_new_block` does not touch it (`View.Own.alloc`). Rounds of reads
and writes keep it (`ReadStep.own`, `WriteStep.own`), with one exception: a `swap_recreate` that
has given a listed entry its new block and cannot save it clears the bit of the new block,
but leaves the entry as it is.

* `spare_blocks_owned`: in runs without this exception, every state reached is in `Own`;
* `spare_block_given_twice`: with it, two mappings end up with the same block.
-/

namespace ScsiSwap

open StateOption ByteCodec

variable {E : Env} {s s' : World} {v w : View}

/-! ## The invariant -/

/-- The spare block of an entry. -/
def View.index (v : View) (p : ℕ) : ℕ := (v.info p).table.index.toNat

/-- Every listed mapping has a block of its own, marked as used. -/
structure View.Own (v : View) : Prop where
  old : ∀ p ∈ v.list, p < v.brk
  nodup : v.list.Nodup
  bit : ∀ p ∈ v.list, v.bitmap.getLsbD (v.index p) = true
  inj : ∀ p ∈ v.list, ∀ q ∈ v.list, v.index p = v.index q → p = q

theorem View.Own.keep (h : v.Own) (hk : v.Keep w) : w.Own := by
  have hidx : ∀ p ∈ v.list, w.index p = v.index p := by
    intro p hp
    unfold View.index
    rw [hk.info p (h.old p hp)]
  refine ⟨?_, hk.list ▸ h.nodup, ?_, ?_⟩
  · intro p hp
    rw [hk.list] at hp
    exact (h.old p hp).trans_le hk.brk
  · intro p hp
    rw [hk.list] at hp
    rw [hidx p hp]
    exact hk.bits _ (h.bit p hp)
  · intro p hp q hq hpq
    rw [hk.list] at hp hq
    rw [hidx p hp, hidx q hq] at hpq
    exact h.inj p hp q hq hpq

/-- Changing the entry at `p`: it stays in its block, or goes to one that was free. -/
theorem View.Own.setInfo (h : v.Own) {b : BitVec 1024} (hb : BitsLe v.bitmap b) {p : ℕ} {i : SwapInfo}
    (hi : i.table.index.toNat = v.index p ∨ v.bitmap.getLsbD i.table.index.toNat = false)
    (hbit : p ∈ v.list → b.getLsbD i.table.index.toNat = true) : ((v.setBitmap b).setInfo p i).Own := by
  have hself : ((v.setBitmap b).setInfo p i).index p = i.table.index.toNat := by
    unfold View.index
    rw [View.setInfo_info_self]
    rfl
  have hother : ∀ q, q ≠ p → ((v.setBitmap b).setInfo p i).index q = v.index q := by
    intro q hq
    unfold View.index
    rw [View.setInfo_info_of_ne _ _ hq]
    rfl
  -- no other listed entry is in the block of the changed one
  have hnew : ∀ q ∈ v.list, q ≠ p → p ∈ v.list → v.index q ≠ i.table.index.toNat := by
    intro q hq hqp hp he
    rcases hi with hi | hi
    · exact hqp (h.inj q hq p hp (he.trans hi))
    · rw [← he, h.bit q hq] at hi
      exact absurd hi (by simp)
  refine ⟨h.old, h.nodup, ?_, ?_⟩
  · intro q hq
    by_cases hqp : q = p
    · subst hqp
      rw [hself]
      exact hbit hq
    · rw [hother q hqp]
      exact hb _ (h.bit q hq)
  · intro q hq r hr hqr
    by_cases hqp : q = p <;> by_cases hrp : r = p
    · rw [hqp, hrp]
    · subst hqp
      rw [hself, hother r hrp] at hqr
      exact absurd hqr.symm (hnew r hr hrp hq)
    · subst hrp
      rw [hself, hother q hqp] at hqr
      exact absurd hqr (hnew q hq hqp hr)
    · rw [hother q hqp, hother r hrp] at hqr
      exact h.inj q hq r hr hqr

theorem View.Own.setData (h : v.Own) {b : BitVec 1024} (hb : BitsLe v.bitmap b) (p : ℕ) (d : Block) :
    ((v.setBitmap b).setData p d).Own :=
  h.setInfo hb (Or.inl rfl) fun hp => hb _ (h.bit p hp)

theorem assign_index {t : SwapTable} {sectorData index : ℕ} (hi : index < 1024) :
    (t.assign sectorData index).index.toNat = index := by
  show (BitVec.ofNat 32 index).toNat = index
  rw [BitVec.toNat_ofNat, Nat.mod_eq_of_lt (by omega)]

theorem View.Own.move (h : v.Own) {b : BitVec 1024} (hb : BitsLe v.bitmap b) {p index : ℕ} (hi : index < 1024)
    (hfree : v.bitmap.getLsbD index = false) (hbit : b.getLsbD index = true) (d : Block) :
    (v.move p b index d).Own := by
  refine h.setInfo hb (Or.inr ?_) fun _ => ?_
  · rw [assign_index hi]; exact hfree
  · rw [assign_index hi]; exact hbit

theorem View.Own.create (h : v.Own) {b : BitVec 1024} (hb : BitsLe v.bitmap b) {src index : ℕ} (hi : index < 1024)
    (hfree : v.bitmap.getLsbD index = false) (hbit : b.getLsbD index = true) (d : Block) :
    (v.create b src index d).Own := by
  have hold : ∀ p ∈ v.list, (v.create b src index d).index p = v.index p := by
    intro p hp
    unfold View.index
    rw [View.create_info_old _ _ _ _ _ (h.old p hp)]
  have hnew : (v.create b src index d).index v.brk = index := by
    unfold View.index
    rw [View.create_info_new]
    exact entryFor_index hi
  have hne : ∀ p ∈ v.list, v.index p ≠ index := by
    intro p hp he
    rw [← he, h.bit p hp] at hfree
    exact absurd hfree (by simp)
  have hmem : ∀ p, p ∈ (v.create b src index d).list ↔ p ∈ v.list ∨ p = v.brk := by
    intro p
    show p ∈ v.list ++ [v.brk] ↔ _
    simp
  refine ⟨?_, ?_, ?_, ?_⟩
  · intro p hp
    show p < v.brk + 1
    rcases (hmem p).1 hp with hp | rfl
    · exact (h.old p hp).trans (Nat.lt_succ_self _)
    · exact Nat.lt_succ_self _
  · refine List.Nodup.append h.nodup (List.nodup_singleton _) ?_
    intro p hp hp'
    rw [List.mem_singleton] at hp'
    subst hp'
    exact absurd (h.old _ hp) (lt_irrefl _)
  · intro p hp
    rcases (hmem p).1 hp with hp | rfl
    · rw [hold p hp]; exact hb _ (h.bit p hp)
    · rw [hnew]; exact hbit
  · intro p hp q hq hpq
    rcases (hmem p).1 hp with hp | rfl <;> rcases (hmem q).1 hq with hq | rfl
    · rw [hold p hp, hold q hq] at hpq
      exact h.inj p hp q hq hpq
    · rw [hold p hp, hnew] at hpq
      exact absurd hpq (hne p hp)
    · rw [hnew, hold q hq] at hpq
      exact absurd hpq.symm (hne q hq)
    · rfl

/-- No listed mapping's block is handed out. -/
theorem View.Own.alloc (h : s.view.Own) {index : ℕ} (ha : (swapAllocNewBlock E).run s = some (some index, s')) :
    ∀ p ∈ s.view.list, s.view.index p ≠ index := by
  intro p hp he
  obtain ⟨b, hal⟩ := swapAllocNewBlock_alloc ha
  have hfree := (hal.fresh index rfl).2.1
  rw [← he, h.bit p hp] at hfree
  exact absurd hfree (by simp)

/-! ## Moves -/

/-- `swap_recreate`, called in state `s`, is in state `t` when it has given the entry at `p` its
new block and is about to save it. -/
def Moved (E : Env) (p : ℕ) (s t : World) : Prop :=
  ∃ index s₁ s₂, s.core.infoNum < maxSwapBlockForUse ∧ (swapAllocNewBlock E).run s = some (some index, s₁) ∧
    ((List.range 128).forM (rereadSector E p)).run s₁ = some ((), s₂) ∧
    t = s₂.setInfo p { s₂.heap p with table := (s₂.heap p).table.assign s₂.core.sectorData index }

/-- The device takes the data of the entry at `p`, and then the backup of the head. -/
def Saved (E : Env) (p : ℕ) (t : World) : Prop :=
  (∀ d, (t.heap p).data = some d → (E.write t.tick
    ⟨(t.heap p).table.swapSec.toNat % 2 ^ 32, (t.heap p).table.secSize.toNat % 2 ^ 16, 5⟩ (blockBuf d)).isOk =
      true) ∧
  ∀ t₁ t₂, (flushSwapInfoData E p).run t = some (true, t₁) → (flushSwapInfoTable E).run t₁ = some (true, t₂) →
    (E.write (t₂.tick + 1) ⟨(t₂.core.sectorHead + swapHeadBackupOffest) % 2 ^ 32, 1, 5⟩
      fun _ => swapHeadEquiv { t₂.core.head with checksum := t₂.core.head.crc }).isOk = true

theorem flushSwapHead_fails (h : (flushSwapHead E).run s = some (false, s')) :
    (E.write (s.tick + 1) ⟨(s.core.sectorHead + swapHeadBackupOffest) % 2 ^ 32, 1, 5⟩
      fun _ => swapHeadEquiv { s.core.head with checksum := s.core.head.crc }).isOk = false := by
  unfold flushSwapHead at h
  rw [run_get_bind] at h
  dsimp only at h
  rw [run_set_bind] at h
  obtain ⟨b, s₁, h1, h2⟩ := run_bind_iff.1 h
  have e1 := congrArg Prod.snd (Option.some.inj ((hdWriteSector_run ..).symm.trans h1))
  have e2 := congrArg Prod.fst (Option.some.inj ((hdWriteSector_run ..).symm.trans h2))
  have ht : s₁.tick = s.tick + 1 := (congrArg World.tick e1).symm
  rw [← ht]
  exact e2

/-- A `swap_recreate` that returns -1 and has moved its entry could not save it. -/
theorem swapRecreate_cut {p : ℕ} (h : (swapRecreate E p).run s = some (false, s'))
    (hne : (s'.heap p).table.index ≠ (s.heap p).table.index) : ∃ t, Moved E p s t ∧ ¬ Saved E p t := by
  unfold swapRecreate at h
  rw [run_get_bind] at h
  split at h
  · obtain ⟨-, rfl⟩ := run_pure_iff.1 h
    exact absurd rfl hne
  rename_i hroom
  obtain ⟨o, s₁, h1, h2⟩ := run_bind_iff.1 h
  cases o with
  | none =>
    obtain ⟨-, rfl⟩ := run_pure_iff.1 h2
    obtain ⟨b, hal⟩ := swapAllocNewBlock_alloc h1
    exact absurd (congrArg (fun i => i.table.index) (hal.upd.info p)) hne
  | some index =>
    dsimp only at h2
    obtain ⟨u, s₂, h3, h4⟩ := run_bind_iff.1 h2
    rw [run_modify_bind] at h4
    refine ⟨_, ⟨index, s₁, s₂, Nat.lt_of_not_le hroom, h1, h3, rfl⟩, ?_⟩
    rintro ⟨hdata, hhead⟩
    obtain ⟨d, hr⟩ := reread_spec (A := fun _ => True) h3
    have hd : (s₂.heap p).data = some d := by
      rw [hr.data p]
      unfold View.setData
      rw [View.setInfo_info_self]
      rfl
    obtain ⟨ok, s₄, h5, h6⟩ := run_bind_iff.1 h4
    obtain rfl : ok = false := by
      cases ok with
      | false => rfl
      | true => exact absurd (run_pure_iff.1 h6).1 (by simp)
    obtain ⟨ok, t₁, g1, g2⟩ := run_bind_iff.1 h5
    have hok : ok = true := by
      unfold flushSwapInfoData at g1
      rw [run_get_bind] at g1
      dsimp only [World.setInfo] at g1
      rw [Function.update_self] at g1
      dsimp only at g1
      rw [hd] at g1
      have e1 := congrArg Prod.fst (Option.some.inj ((hdWriteSector_run ..).symm.trans g1))
      have e2 := hdata d (by simp [World.setInfo, hd])
      refine e1.symm.trans ?_
      simpa [World.setInfo] using e2
    subst hok
    rw [if_pos rfl] at g2
    obtain ⟨ok, t₂, g3, g4⟩ := run_bind_iff.1 g2
    obtain ⟨rfl, -⟩ := flushSwapInfoTable_dev g3
    rw [if_pos rfl] at g4
    have := flushSwapHead_fails g4
    rw [hhead t₁ t₂ g1 g3] at this
    exact absurd this (by simp)

/-! ## Rounds -/

/-- If a round of a write for segment `g` moves the mapping of its block, the move is saved. -/
def RoundSaves (E : Env) (s : World) (g : Seg) (src : ℕ → Sector) : Prop :=
  ∀ p s₁ t, s.swapFindSwapInfo g.bStart = some p →
    (swapWrite' E p g.sStart g.sCount src).run s = some (false, s₁) → Moved E p s₁ t → Saved E p t

theorem Wrote.own {p start count : ℕ} {buf : ℕ → Sector} {r : Ret} (h : Wrote E s p start count buf r w)
    (ho : s.view.Own) (hp : p ∈ s.view.list)
    (hs : ∀ s₁ t, (swapWrite' E p start count buf).run s = some (false, s₁) → Moved E p s₁ t → Saved E p t) :
    w.Own := by
  cases h with
  | done hd => exact ho.setData (BitsLe.refl _) p _
  | stuck hf hb => exact ho.setData hb p _
  | moved hf hb hi hfree hbit => exact ho.move hb hi hfree hbit _
  | lost hf hb hi hfree hbit => exact ho.move hb hi hfree hbit _
  | @cut t₁ t₂ b index d hf hr ht ht₁ hb hi hfree hbit =>
    -- the entry has changed its block, so this is the exception
    have hne : (t₂.heap p).table.index ≠ (t₁.heap p).table.index := by
      rw [ht, ht₁]
      intro he
      have hidx : s.view.index p = index := by
        unfold View.index
        rw [← he, BitVec.toNat_ofNat, Nat.mod_eq_of_lt (by omega)]
      rw [← hidx, ho.bit p hp] at hfree
      exact absurd hfree (by simp)
    obtain ⟨t, hm, hn⟩ := swapRecreate_cut hr hne
    exact absurd (hs t₁ t hf hm) hn

theorem WriteStep.own {g : Seg} {src : ℕ → Sector} {r : Ret} (h : WriteStep E s g src r s') (ho : s.view.Own)
    (hs : RoundSaves E s g src) : s'.view.Own := by
  cases h with
  | @hit _ p _ _ hp hw hu =>
    rw [hu.view]
    exact hw.own ho (View.find_some hp).1 fun s₁ t => hs p s₁ t hp
  | direct hn hu hd => rw [hu.view]; exact ho
  | failed hn hk hu => rw [hu.view]; exact ho.keep hk
  | created hn hroom hb hi hfree hbit hseg hcopy hu => rw [hu.view]; exact ho.create hb hi hfree hbit _

theorem ReadStep.own {g : Seg} {buf : ℕ → Sector} {r : Ret × (ℕ → Sector)} (h : ReadStep E s g buf r s')
    (ho : s.view.Own) : s'.view.Own := by
  cases h with
  | hit hp hd hbuf => exact ho
  | direct hn hu hbuf => rw [hu.view]; exact ho
  | failed hn hk hu => rw [hu.view]; exact ho.keep hk
  | created hn hroom hb hi hfree hbit hseg hout hbuf hu => rw [hu.view]; exact ho.create hb hi hfree hbit _

/-! ## Requests -/

/-- Whenever the request, served in state `s`, moves a listed mapping to another block, the
device takes what `swap_recreate` has to write after that. -/
def MovesSaved (E : Env) (s : World) (o : Request) : Prop :=
  o.isWrite = true → ∀ g t, WriteRound E o.start (badIndex o.bad) o.buf
    (getSwapBlockCount o.start (s32 o.count)).toNat 0 o.count 0
    { s with core := { s.core with user := s.core.user + 1 } } g t →
    RoundSaves E t g fun k => o.buf (g.off + k)

theorem own_roundRel : RoundRel fun s s' => s.view.Own → s'.view.Own :=
  ⟨fun _ h => h, fun _ _ _ h1 h2 h => h2 (h1 h), fun _ _ h => h⟩

theorem serve_own {o : Request} {a : Reply} (h : (o.serve E).run s = some (a, s')) (ho : s.view.Own)
    (hs : MovesSaved E s o) : s'.view.Own := by
  refine serve_rounds own_roundRel h ?_ ?_ ho
  · intro hw g t r t' hg hb ht
    exact (coreWriteBlock_step hb).own ht (hs hw g t hg)
  · intro g _ buf t r t' hb ht
    exact (coreReadBlock_step hb).own ht

/-- **Every mapping owns its spare block**, in every state reached from a start on an all-zero
reserve by requests whose moves are saved: the indices are pairwise distinct, their bits are
set, and `_swap_alloc_new_block` hands out none of them. -/
theorem spare_blocks_owned {E₀ : Env} {R : ℕ} {s₀ s₁ : World} (hE : E₀.NoForgedEntry) (hz : ZeroReserve R s₀.disk)
    (hinit : (scsiSwapInit E₀ R).run s₀ = some (true, s₁))
    (h : Reach (Request.serve E) (MovesSaved E) s₁ s) :
    (s.core.infoList.map fun p => (s.heap p).table.index).Nodup ∧
      (∀ p ∈ s.core.infoList, s.core.head.bitmap.getLsbD (s.heap p).table.index.toNat = true) ∧
      ∀ index s', (swapAllocNewBlock E).run s = some (some index, s') →
        ∀ p ∈ s.core.infoList, (s.heap p).table.index.toNat ≠ index := by
  have hstart : s₁.view.Own := by
    have hl : s₁.view.list = [] := (scsiSwapInit_empty hE hz hinit).1
    refine ⟨?_, ?_, ?_, ?_⟩ <;> rw [hl] <;> simp
  have hown := h.inv (I := fun t => t.view.Own) hstart fun t o a t' ho hs ht => serve_own ht ho hs
  refine ⟨?_, hown.bit, fun index s' ha => hown.alloc ha⟩
  refine List.Nodup.map_on ?_ hown.nodup
  intro p hp q hq hpq
  exact hown.inj p hp q hq (congrArg BitVec.toNat hpq)

/-- A request of one block has one round. -/
theorem movesSaved_fill {start : ℕ} {b : Byte} (hn : (getSwapBlockCount start (s32 128)).toNat = 1)
    (h : RoundSaves E { s with core := { s.core with user := s.core.user + 1 } } (segAt start 0 128 0)
      fun _ _ => b) : MovesSaved E s (Request.fill start b) := by
  intro _ g t hround
  rw [show (getSwapBlockCount (Request.fill start b).start (s32 (Request.fill start b).count)).toNat = 1
    from hn] at hround
  cases hround with
  | here => exact h
  | next h hr hn => cases hn

/-- A device that takes writes to the two addresses saves a move. -/
theorem saved_refusing {refuses : Cmd → (ℕ → Sector) → Bool} {p : ℕ} {t : World}
    (h1 : ∀ c buf, c.lba = (t.heap p).table.swapSec.toNat % 2 ^ 32 → refuses c buf = false)
    (h2 : ∀ c buf, c.lba = (t.core.sectorHead + swapHeadBackupOffest) % 2 ^ 32 → refuses c buf = false) :
    Saved (Env.refusing refuses) p t := by
  refine ⟨fun d _ => ?_, fun t₁ t₂ g1 g2 => ?_⟩
  · simp only [Env.refusing]
    rw [h1 _ _ rfl]
    rfl
  · have e1 : t₁.core.sectorHead = t.core.sectorHead := congrArg Geom.head (flushSwapInfoData_dev g1).geom
    have e2 : t₂.core.sectorHead = t₁.core.sectorHead := congrArg Geom.head (flushSwapInfoTable_dev g2).2.geom
    simp only [Env.refusing]
    rw [h2 _ _ (by rw [e2, e1])]
    rfl

/-- A device that cannot write its first 1000 sectors, nor twos to its first spare block: the
mapping of block 0 moves to the second one, and owns it. -/
theorem spare_blocks_owned_moved :
    let E := Env.refusing fun c b => c.lba < 1000 || (c.lba = 50152 && b 0 0 = 2)
    ∃ s₁ s as, (scsiSwapInit E 1000).run World.blank = some (true, s₁) ∧
      (session E [Request.fill 0 1, Request.fill 0 2]).run s₁ = some (as, s) ∧
      s.core.infoList.map (fun p => (s.heap p).table.index) = [1] ∧
      ∀ p ∈ s.core.infoList, s.core.head.bitmap.getLsbD (s.heap p).table.index.toNat = true := by
  intro E
  have hrun : ((do
      let ok ← scsiSwapInit E 1000
      let _ ← (Request.fill 0 1).serve E
      userInc
      let s ← get
      let w ← swapWrite' E 0 0 128 (fun _ _ => 2)
      let o ← swapAllocNewBlock E
      (List.range 128).forM (rereadSector E 0)
      modify fun s => s.setInfo 0 { s.heap 0 with table := (s.heap 0).table.assign s.core.sectorData (o.getD 0) }
      let t ← get
      return decide (ok = true ∧ s.swapFindSwapInfo 0 = some 0 ∧ w = false ∧ o = some 1 ∧
        (t.heap 0).table.swapSec = 50280 ∧ t.core.sectorHead = 17384) :
          SwapM Bool).run World.blank).map Prod.fst = some true := by decide +kernel
  obtain ⟨s', h⟩ := run_of_result hrun
  obtain ⟨ok, s₁, h1, h⟩ := run_bind_iff.1 h
  obtain ⟨a, s₂, h2, h⟩ := run_bind_iff.1 h
  obtain ⟨u, s₃, h3, h⟩ := run_bind_iff.1 h
  obtain rfl := run_modify_iff.1 h3
  rw [run_get_bind] at h
  obtain ⟨w, s₃, h4, h⟩ := run_bind_iff.1 h
  obtain ⟨o, s₄, h5, h⟩ := run_bind_iff.1 h
  obtain ⟨u, s₅, h6, h⟩ := run_bind_iff.1 h
  rw [run_modify_bind, run_get_bind] at h
  obtain ⟨e, rfl⟩ := run_pure_iff.1 h
  obtain ⟨rfl, hfind, rfl, rfl, hsec, hhead⟩ := of_decide_eq_true e.symm
  have hempty : s₁.core.infoList = [] := (scsiSwapInit_empty (refusing_noForgedEntry _) (fun _ _ => rfl) h1).1
  have hm1 : MovesSaved E s₁ (Request.fill 0 1) := by
    refine movesSaved_fill (by decide) ?_
    intro p s₁' t hp
    simp [World.swapFindSwapInfo, hempty] at hp
  have hm2 : MovesSaved E s₂ (Request.fill 0 2) := by
    refine movesSaved_fill (by decide) ?_
    intro p t₁ t hp hw hmoved
    obtain rfl : p = 0 := Option.some.inj (hp.symm.trans hfind)
    obtain ⟨-, rfl⟩ := run_det h4 hw
    obtain ⟨index, t₂, t₃, -, ha, hr, rfl⟩ := hmoved
    obtain ⟨hi, rfl⟩ := run_det h5 ha
    obtain ⟨-, rfl⟩ := run_det h6 hr
    obtain rfl : index = 1 := Option.some.inj hi
    refine saved_refusing (fun c buf hc => ?_) (fun c buf hc => ?_)
    · have hl : c.lba = 50280 := hc.trans (congrArg (fun x : BitVec 64 => x.toNat % 2 ^ 32) hsec)
      simp [hl]
    · have hl : c.lba = 17448 := hc.trans (congrArg (fun x => (x + swapHeadBackupOffest) % 2 ^ 32) hhead)
      simp [hl]
  -- the whole session
  have hrun2 : ((do
      let ok ← scsiSwapInit E 1000
      let as ← session E [Request.fill 0 1, Request.fill 0 2]
      let s ← get
      return (ok, s.core.infoList.map fun p => (s.heap p).table.index) : SwapM (Bool × List (BitVec 32))).run
      World.blank).map Prod.fst = some (true, [1]) := by decide +kernel
  obtain ⟨s', g⟩ := run_of_result hrun2
  obtain ⟨ok, t₁, g1, g2⟩ := run_bind_iff.1 g
  obtain ⟨rfl, rfl⟩ := run_det h1 g1
  obtain ⟨as, t₂, g3, g4⟩ := run_bind_iff.1 g2
  rw [run_get_bind] at g4
  obtain ⟨e, rfl⟩ := run_pure_iff.1 g4
  obtain ⟨-, hidx⟩ := Prod.mk.inj e
  obtain ⟨a₁, t₂, k1, k2⟩ := run_bind_iff.1 g3
  obtain ⟨rfl, rfl⟩ := run_det h2 k1
  obtain ⟨as', t₃, k3, k4⟩ := run_bind_iff.1 k2
  obtain ⟨a₂, t₄, k5, k6⟩ := run_bind_iff.1 k3
  obtain ⟨-, rfl⟩ := run_pure_iff.1 k4
  obtain ⟨as'', t₅, k7, k8⟩ := run_bind_iff.1 k6
  obtain ⟨-, rfl⟩ := run_pure_iff.1 k7
  obtain ⟨-, rfl⟩ := run_pure_iff.1 k8
  have hreach : Reach (Request.serve E) (MovesSaved E) t₁ s' := .step (.step .start hm1 h2) hm2 k5
  obtain ⟨-, hbits, -⟩ := spare_blocks_owned (refusing_noForgedEntry _) (fun _ _ => rfl) h1 hreach
  exact ⟨t₁, s', as, h1, g3, hidx.symm, hbits⟩

/-- **A spare block given twice.** The same device, which now refuses ones for its second spare
block too. The second write moves the mapping of block 0 there and cannot save it; the bit is
cleared, and the third write gets the same block for another mapping. -/
theorem spare_block_given_twice :
    let E := Env.refusing fun c b => c.lba < 1000 || (c.lba = 50152 && b 0 0 = 2) || (c.lba = 50280 && b 0 0 = 1)
    ∃ s₁ s as, (scsiSwapInit E 1000).run World.blank = some (true, s₁) ∧
      (session E [Request.fill 0 1, Request.fill 0 2, Request.fill 128 3]).run s₁ = some (as, s) ∧
      as.map Reply.ret = [.ok, .err, .ok] ∧
      s.core.infoList.map (fun p => (s.heap p).table.index) = [1, 1] := by
  intro E
  have hrun : ((do
      let ok ← scsiSwapInit E 1000
      let as ← session E [Request.fill 0 1, Request.fill 0 2, Request.fill 128 3]
      let s ← get
      return (ok, as.map Reply.ret, s.core.infoList.map fun p => (s.heap p).table.index) :
        SwapM (Bool × List Ret × List (BitVec 32))).run World.blank).map Prod.fst =
      some (true, [.ok, .err, .ok], [1, 1]) := by decide +kernel
  obtain ⟨s', h⟩ := run_of_result hrun
  obtain ⟨ok, s₁, h1, h2⟩ := run_bind_iff.1 h
  obtain ⟨as, s₂, h3, h4⟩ := run_bind_iff.1 h2
  rw [run_get_bind] at h4
  obtain ⟨e, rfl⟩ := run_pure_iff.1 h4
  obtain ⟨rfl, e1⟩ := Prod.mk.inj e
  obtain ⟨hrets, hidx⟩ := Prod.mk.inj e1
  exact ⟨s₁, s', as, h1, h3, hrets.symm, hidx.symm⟩

end ScsiSwap
