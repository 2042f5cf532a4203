import ScsiSwap.Proof.Alloc
import ScsiSwap.Proof.Blocks
import ScsiSwap.Spec.Session

/-!
# Moving a mapping

`swap_recreate` does not use the data it has in memory: it reads the old block again, sector by sector,
and takes zeros where that fails.

* `reread E p s i`: what it gets for sector `i`, `reread_run`;
* `swapRecreate_moves`: the mapping and its new block after a move;
* `moves_keep_iff`: when these are what the mapping had;
* `failed_move_iff`: when a move that returns -1 leaves everything as it was.
-/

namespace ScsiSwap

open StateOption

variable {E : Env} {s s' : World} {p : ℕ}

/-! ## Reading the old block -/

/-- Sector `i` of the block of the mapping at `p`, as `swap_recreate` takes it when it begins to read in state
`s`. -/
def reread (E : Env) (p : ℕ) (s : World) : Block := fun i =>
  let lba := ((s.heap p).table.swapSec.toNat + i) % 2 ^ 32
  if (E.read (s.tick + i) ⟨lba, 1, 0⟩).isOk then s.disk lba else zeroSector

/-- A read of one sector, as it is used here. -/
theorem hdReadSector_orZero {r sector : ℕ} {x : Bool × (ℕ → Option Sector)}
    (h : (hdReadSector E r sector 1).run s = some (x, s')) :
    (if x.1 then (x.2 0).getD zeroSector else zeroSector) =
      if (E.read s.tick ⟨sector % 2 ^ 32, 1, r⟩).isOk then s.disk (sector % 2 ^ 32) else zeroSector := by
  rw [hdReadSector_run] at h
  dsimp only at h
  rw [show 1 % 2 ^ 16 = 1 from rfl] at h
  obtain ⟨rfl, -⟩ := Prod.mk.inj (Option.some.inj h)
  cases E.read s.tick ⟨sector % 2 ^ 32, 1, r⟩ with
  | ok => rfl
  | fail junk nc => rfl

theorem rereadSector_run {d : Block} {i : ℕ} {u : PUnit} (hd : (s.heap p).data = some d)
    (h : (rereadSector E p i).run s = some (u, s')) :
    let lba := ((s.heap p).table.swapSec.toNat + i) % 2 ^ 32
    s'.disk = s.disk ∧ s'.tick = s.tick + 1 ∧ s'.heap p = ⟨(s.heap p).table,
      some (copyIn d i 1 fun _ => if (E.read s.tick ⟨lba, 1, 0⟩).isOk then s.disk lba else zeroSector)⟩ := by
  intro lba
  unfold rereadSector at h
  rw [run_get_bind, hd] at h
  obtain ⟨x, s₁, h1, h2⟩ := run_bind_iff.1 h
  have hread := hdReadSector_orZero h1
  have hs₁ : s₁ = s.answered (E.read s.tick ⟨lba, 1, 0⟩) :=
    (congrArg Prod.snd (Option.some.inj ((hdReadSector_run ..).symm.trans h1))).symm
  obtain rfl := run_modify_iff.1 h2
  subst hs₁
  refine ⟨rfl, rfl, ?_⟩
  show Function.update s.heap p _ p = _
  rw [Function.update_self]
  show SwapInfo.mk (s.heap p).table ((s.heap p).data.map _) = _
  rw [hd, Option.map_some, hread]

/-- **What is read back.** -/
theorem reread_run {d : Block} {u : PUnit} (hd : (s.heap p).data = some d)
    (h : ((List.range 128).forM (rereadSector E p)).run s = some (u, s')) :
    s'.disk = s.disk ∧ s'.heap p = ⟨(s.heap p).table, some (reread E p s)⟩ := by
  -- after `k` sectors
  have hrun := forM_inv (P := fun k t => t.disk = s.disk ∧ t.tick = s.tick + k ∧
    t.heap p = ⟨(s.heap p).table, some fun i : Fin 128 => if i < k then reread E p s i else d i⟩)
      _ 0 s s' u ?_ h ?_
  · rw [Nat.zero_add, List.length_range] at hrun
    obtain ⟨h1, -, h2⟩ := hrun
    refine ⟨h1, h2.trans ?_⟩
    congr 2
    funext i
    rw [if_pos i.isLt]
  · refine ⟨rfl, rfl, ?_⟩
    simp only [Nat.not_lt_zero, if_false, ← hd]
  · rintro k hk t v t₁ ⟨hdisk, htick, hheap⟩ ht
    rw [List.length_range] at hk
    rw [List.getElem_range, Nat.zero_add] at *
    obtain ⟨h1, h2, h3⟩ := rereadSector_run (by rw [hheap]) ht
    refine ⟨h1.trans hdisk, by rw [h2, htick, Nat.add_assoc], ?_⟩
    rw [h3, hheap, hdisk, htick]
    congr 2
    funext i
    unfold copyIn
    dsimp only
    by_cases hi : k = i.val
    · subst hi
      have hin : i.val ≤ i.val ∧ i.val < i.val + 1 := by omega
      rw [if_pos hin, if_pos hin.2]
      rfl
    · rw [if_neg (by omega)]
      by_cases hlt : i.val < k
      · rw [if_pos hlt, if_pos (by omega)]
      · rw [if_neg hlt, if_neg (by omega)]

/-! ## A move -/

/-- The mapping at `p` has the data `D`, a whole block of it, and the head and the tables are not among the
spare blocks. -/
structure Movable (s : World) (p : ℕ) (D : Block) : Prop where
  geom : s.geom.Ok
  head : s.geom.head + swapHeadBackupOffest < s.geom.data
  room : s.core.infoList.length ≤ maxSwapBlockForUse
  size : (s.heap p).table.secSize = 128
  data : (s.heap p).data = some D

theorem Movable.upd {D D' : Block} {A : ℕ → Prop} (h : Movable s p D) (hu : Upd A (s.view.setData p D') s s') :
    Movable s' p D' := by
  have hg : s'.geom = s.geom := hu.geom
  have hi := (hu.info p).trans (View.setInfo_info_self ..)
  refine ⟨hg ▸ h.geom, hg ▸ h.head, ?_, ?_, congrArg SwapInfo.data hi⟩
  · have hl : s'.core.infoList = s.core.infoList := congrArg View.list hu.view
    rw [hl]
    exact h.room
  · exact (congrArg (fun i => i.table.secSize) hi).trans h.size

/-- A flush that succeeds leaves the data in the block. -/
theorem flushSwapInfoData_writes {d : Block} (hd : (s.heap p).data = some d)
    (hsize : (s.heap p).table.secSize = 128)
    (h : (flushSwapInfoData E p).run s = some (true, s')) (i : Fin 128) :
    s'.disk ((s.heap p).table.swapSec.toNat % 2 ^ 32 + i) = d i := by
  unfold flushSwapInfoData at h
  rw [run_get_bind] at h
  dsimp only at h
  rw [hd, hsize] at h
  have hi := i.isLt
  have hin : cmdRange (s.heap p).table.swapSec.toNat 128 ((s.heap p).table.swapSec.toNat % 2 ^ 32 + i) := by
    unfold cmdRange
    omega
  rw [hdWriteSector_ok h _ hin, Nat.add_sub_cancel_left]
  unfold blockBuf
  rw [dif_pos hi]

/-- Neither the tables nor the head are among the spare blocks. -/
theorem Movable.outside {D : Block} (h : Movable s p D) {index : ℕ} (hi : index < 1024) (i : Fin 128) :
    ¬ TableArea s.geom (33 + s.core.infoList.length) (s.geom.data + 128 * index + i) ∧
      ¬ HeadArea s.geom (s.geom.data + 128 * index + i) := by
  have h1 := h.geom.size
  have h2 := h.geom.table
  have h3 := h.geom.data
  have h4 := h.head
  have h5 := h.room
  have h6 := i.isLt
  simp only [maxReservedSector, swapTableOffset, swapDataOffset, sector8M, swapHeadBackupOffest,
    maxSwapBlockForUse]
    at h1 h2 h3 h4 h5
  constructor
  · rintro (⟨k, hk, he⟩ | ⟨k, hk, he⟩)
    · omega
    · simp only [swapTableBackupOffset, maxReservedSector, sector8M] at he
      omega
  · rintro (he | he)
    · omega
    · omega

/-- The steps of a move that succeeds. -/
theorem swapRecreate_steps (h : (swapRecreate E p).run s = some (true, s')) :
    ∃ index s₁ s₂ t₁ t₂ u, (swapAllocNewBlock E).run s = some (some index, s₁) ∧
      ((List.range 128).forM (rereadSector E p)).run s₁ = some (u, s₂) ∧
      (flushSwapInfoData E p).run (s₂.setInfo p { s₂.heap p with
        table := (s₂.heap p).table.assign s₂.core.sectorData index }) = some (true, t₁) ∧
      (flushSwapInfoTable E).run t₁ = some (true, t₂) ∧ (flushSwapHead E).run t₂ = some (true, s') := by
  unfold swapRecreate at h
  rw [run_get_bind] at h
  split at h
  · exact absurd (run_pure_iff.1 h).1 (by simp)
  obtain ⟨o, s₁, h1, h2⟩ := run_bind_iff.1 h
  cases o with
  | none => exact absurd (run_pure_iff.1 h2).1 (by simp)
  | some index =>
    dsimp only at h2
    obtain ⟨u, s₂, h3, h4⟩ := run_bind_iff.1 h2
    rw [run_modify_bind] at h4
    obtain ⟨ok, s₄, h5, h6⟩ := run_bind_iff.1 h4
    cases ok with
    | false =>
      rw [if_neg (by simp), run_modify_bind] at h6
      exact absurd (run_pure_iff.1 h6).1 (by simp)
    | true =>
      rw [if_pos rfl] at h6
      obtain ⟨-, rfl⟩ := run_pure_iff.1 h6
      obtain ⟨ok1, t₁, g1, g2⟩ := run_bind_iff.1 h5
      cases ok1 with
      | false => exact absurd (run_pure_iff.1 g2).1 (by simp)
      | true =>
        rw [if_pos rfl] at g2
        obtain ⟨ok2, t₂, g3, g4⟩ := run_bind_iff.1 g2
        obtain ⟨rfl, -⟩ := flushSwapInfoTable_dev g3
        rw [if_pos rfl] at g4
        exact ⟨index, s₁, s₂, t₁, t₂, u, h1, h3, g1, g3, g4⟩

/-- The mapping has what could be read of the old block. -/
theorem swapRecreate_rereads {D : Block} (hd : (s.heap p).data = some D)
    (h : (swapRecreate E p).run s = some (true, s')) :
    ∃ index s₁, (swapAllocNewBlock E).run s = some (some index, s₁) ∧
      (s'.heap p).data = some (reread E p s₁) := by
  obtain ⟨index, s₁, s₂, t₁, t₂, u, h1, h2, h3, h4, h5⟩ := swapRecreate_steps h
  obtain ⟨b, hal⟩ := swapAllocNewBlock_alloc h1
  refine ⟨index, s₁, h1, ?_⟩
  obtain ⟨-, hheap⟩ := reread_run ((hal.upd.data p).trans hd) h2
  obtain ⟨-, htab⟩ := flushSwapInfoTable_dev h4
  rw [(flushSwapHead_dev h5).data, htab.view, (flushSwapInfoData_dev h3).view, view_setInfo,
    View.setInfo_info_self]
  exact congrArg SwapInfo.data hheap

/-- **A move that succeeds**: the mapping and its new block have what could be read of the old one. -/
theorem swapRecreate_moves {D : Block} (hm : Movable s p D) (h : (swapRecreate E p).run s = some (true, s')) :
    ∃ index s₁, index < 1024 ∧ (swapAllocNewBlock E).run s = some (some index, s₁) ∧
      (s'.heap p).data = some (reread E p s₁) ∧ (s'.heap p).table.swapSec.toNat = s.geom.data + 128 * index ∧
      (s'.heap p).table.secSize = 128 ∧ s'.geom = s.geom ∧
      ∀ i : Fin 128, s'.disk (s.geom.data + 128 * index + i) = reread E p s₁ i := by
  have hsize := hm.geom.size
  have hdata := hm.geom.data
  simp only [maxReservedSector, swapDataOffset, sector8M] at hsize hdata
  obtain ⟨index, s₁, s₂, t₁, t₂, u, h1, h3, g1, g3, g4⟩ := swapRecreate_steps h
  obtain ⟨b, hal⟩ := swapAllocNewBlock_alloc h1
  obtain ⟨hi, -, -⟩ := hal.fresh index rfl
  refine ⟨index, s₁, hi, h1, ?_⟩
  -- the entry before the move, in memory
  have hinfo₁ : (s₁.heap p).strip = (s.heap p).strip := hal.upd.info p
  have hd₁ : (s₁.heap p).data = some D := (congrArg SwapInfo.data hinfo₁).trans hm.data
  obtain ⟨-, hheap₂⟩ := reread_run hd₁ h3
  obtain ⟨d, hr⟩ := reread_spec (A := FreeArea s.view) h3
  have hg₂ : s₂.geom = s.geom := hr.geom.trans hal.upd.geom
  have hl₂ : s₂.core.infoList = s.core.infoList :=
    (congrArg View.list hr.view).trans (congrArg View.list hal.upd.view)
  set s₃ := s₂.setInfo p { s₂.heap p with table := (s₂.heap p).table.assign s₂.core.sectorData index } with hs₃
  have hheap₃ : s₃.heap p = ⟨(s₂.heap p).table.assign s.geom.data index, some (reread E p s₁)⟩ := by
    rw [hs₃]
    unfold World.setInfo
    dsimp only
    rw [Function.update_self, hheap₂, show s₂.core.sectorData = s.geom.data from congrArg Geom.data hg₂]
  have hswap : (s₃.heap p).table.swapSec.toNat = s.geom.data + 128 * index := by
    rw [hheap₃]
    show (BitVec.ofNat 64 (s.geom.data + 128 * index)).toNat = _
    rw [BitVec.toNat_ofNat]
    omega
  have hsec : (s₃.heap p).table.secSize = 128 := by
    rw [hheap₃, hheap₂]
    exact (congrArg (fun i => i.table.secSize) hinfo₁).trans hm.size
  -- the three flushes
  obtain ⟨-, htab⟩ := flushSwapInfoTable_dev g3
  have hblock := flushSwapInfoData_dev g1
  have hhead := flushSwapHead_dev g4
  have hg₁ : t₁.geom = s.geom := hblock.geom.trans hg₂
  have hl₁ : t₁.core.infoList = s.core.infoList := (congrArg View.list hblock.view).trans hl₂
  have hview : s'.view = s₃.view := hhead.view.trans (htab.view.trans hblock.view)
  have hinfo : (s'.heap p).strip = (s₃.heap p).strip := congrArg (fun v => v.info p) hview
  refine ⟨?_, ?_, ?_, (congrArg View.geom hview).trans hg₂, fun i => ?_⟩
  · exact (congrArg SwapInfo.data hinfo).trans (congrArg SwapInfo.data hheap₃)
  · exact (congrArg (fun i => i.table.swapSec.toNat) hinfo).trans hswap
  · exact (congrArg (fun i => i.table.secSize) hinfo).trans hsec
  · have hout := hm.outside hi i
    rw [hhead.disk _ (by rw [htab.geom]; exact hg₁ ▸ hout.2), htab.disk _ (by rw [hg₁, hl₁]; exact hout.1)]
    have hw := flushSwapInfoData_writes (congrArg SwapInfo.data hheap₃) hsec g1 i
    rw [hswap, Nat.mod_eq_of_lt (by omega)] at hw
    exact hw

/-- The sectors of its block that a request for `count` sectors from `start` on does not write. -/
def Outside (start count : ℕ) (i : Fin 128) : Prop :=
  i < start - swapSectorAlign start ∨ start - swapSectorAlign start + count ≤ i

/-- When a spare block has been found, the old block of the mapping at `p` reads as `D` in the sectors `K`:
these are on the disk as in `D` if they can be read, and zero in `D` if they cannot. -/
def RereadsAs (E : Env) (p : ℕ) (s : World) (K : Fin 128 → Prop) (D : Block) : Prop :=
  ∀ index t, Granted E s index t → ∀ i, K i → reread E p t i = D i

theorem reread_congr {t : World} (h : SameContents s t) : reread E p s = reread E p t := by
  unfold reread
  rw [h.disk, h.tick, h.heap]

theorem rereadsAs_iff {index : ℕ} {s₁ : World} (h : (swapAllocNewBlock E).run s = some (some index, s₁))
    {K : Fin 128 → Prop} {D : Block} : RereadsAs E p s K D ↔ ∀ i, K i → reread E p s₁ i = D i := by
  obtain ⟨t, hgr, hsame⟩ := swapAllocNewBlock_granted h
  rw [reread_congr hsame]
  refine ⟨fun hD => hD index t hgr, fun hD index' t' h' => ?_⟩
  obtain ⟨-, rfl⟩ := hgr.unique h'
  exact hD

/-- What `_swap_write` has written is in memory and in the block. -/
theorem swapWrite'_writes {start count : ℕ} {buf : ℕ → Sector} {d : Block} (hd : (s.heap p).data = some d)
    (hsize : (s.heap p).table.secSize = 128) (h : (swapWrite' E p start count buf).run s = some (true, s')) :
    (s'.heap p).data = some (copyIn d (start - swapSectorAlign start) count buf) ∧
      (s'.heap p).table.swapSec = (s.heap p).table.swapSec ∧
      ∀ i : Fin 128, s'.disk ((s.heap p).table.swapSec.toNat % 2 ^ 32 + i) =
        copyIn d (start - swapSectorAlign start) count buf i := by
  unfold swapWrite' at h
  rw [run_get_bind, hd] at h
  dsimp only at h
  rw [run_set_bind, dataOffset_eq] at h
  have hheap : ∀ i, (s.setInfo p i).heap p = i := fun i => Function.update_self ..
  have hflush := flushSwapInfoData_writes (congrArg SwapInfo.data (hheap _)) (by rw [hheap]; exact hsize) h
  have hinfo := (flushSwapInfoData_dev h).info p
  rw [view_info, hheap] at hinfo
  rw [hheap] at hflush
  exact ⟨congrArg SwapInfo.data hinfo, congrArg (fun i => i.table.swapSec) hinfo, hflush⟩

/-- The steps of a `swap_write` that moves the mapping. -/
theorem swapWrite_steps {start count : ℕ} {buf : ℕ → Sector}
    (h : (swapWrite E p start count buf).run s = some (.dirty, s')) :
    ∃ t t', (swapWrite' E p start count buf).run s = some (false, t) ∧
      (swapRecreate E p).run t = some (true, t') ∧
      (swapWrite' E p start count buf).run t' = some (true, s') := by
  unfold swapWrite at h
  obtain ⟨ok, t, h1, h2⟩ := run_bind_iff.1 h
  cases ok with
  | true => exact absurd (run_pure_iff.1 h2).1 (by simp)
  | false =>
    rw [if_neg (by simp)] at h2
    obtain ⟨ok, t', h3, h4⟩ := run_bind_iff.1 h2
    cases ok with
    | false => exact absurd (run_pure_iff.1 h4).1 (by simp)
    | true =>
      rw [if_pos rfl] at h4
      obtain ⟨ok, t₃, h5, h6⟩ := run_bind_iff.1 h4
      cases ok with
      | false => exact absurd (run_pure_iff.1 h6).1 (by simp)
      | true =>
        obtain ⟨-, rfl⟩ := run_pure_iff.1 h6
        exact ⟨t, t', h1, h3, h5⟩

/-- The mapping has the data, and what could be read of the old block around it. -/
theorem swapWrite_rereads {start count : ℕ} {buf : ℕ → Sector}
    (h : (swapWrite E p start count buf).run s = some (.dirty, s')) :
    ∃ t index s₁, (swapWrite' E p start count buf).run s = some (false, t) ∧
      (swapAllocNewBlock E).run t = some (some index, s₁) ∧
      (s'.heap p).data = some (copyIn (reread E p s₁) (start - swapSectorAlign start) count buf) := by
  obtain ⟨t, t', h1, h2, h3⟩ := swapWrite_steps h
  obtain ⟨d, -, hu⟩ := swapWrite'_spec h1
  have hd : (t.heap p).data = some (copyIn d (dataOffset start (u32 (swapSectorAlign start))) count buf) :=
    (hu.data p).trans (congrArg SwapInfo.data (View.setInfo_info_self ..))
  obtain ⟨index, s₁, hal, hd'⟩ := swapRecreate_rereads hd h2
  obtain ⟨d', hd₂, hu'⟩ := swapWrite'_spec h3
  obtain rfl : d' = reread E p s₁ := Option.some.inj (hd₂.symm.trans hd')
  rw [dataOffset_eq] at hu'
  exact ⟨t, index, s₁, h1, hal, (hu'.data p).trans (congrArg SwapInfo.data (View.setInfo_info_self ..))⟩

theorem copyIn_outside {start count : ℕ} {buf : ℕ → Sector} {d : Block} {i : Fin 128}
    (h : Outside start count i) : copyIn d (start - swapSectorAlign start) count buf i = d i := by
  unfold Outside at h
  exact copyIn_out (by omega)

/-- **Moves and the data.** After a `swap_recreate` that returns 0 the mapping and its new block have the data
the mapping had, exactly if the old block reads as that. After a `swap_write` that returns `-DATA_MAY_DIRTY`
the sectors it was not to write are what they were, exactly if the old block reads as that in these sectors. -/
theorem moves_keep_iff {D : Block} (hm : Movable s p D) :
    (∀ s', (swapRecreate E p).run s = some (true, s') →
      (((s'.heap p).data = some D ∧ ∀ i : Fin 128, s'.disk ((s'.heap p).table.swapSec.toNat % 2 ^ 32 + i) = D i) ↔
        RereadsAs E p s (fun _ => True) D)) ∧
    ∀ start count buf s', (swapWrite E p start count buf).run s = some (.dirty, s') →
      ((∀ i, Outside start count i → (s'.heap p).data.map (· i) = some (D i) ∧
          s'.disk ((s'.heap p).table.swapSec.toNat % 2 ^ 32 + i) = D i) ↔
        ∀ t, (swapWrite' E p start count buf).run s = some (false, t) →
        RereadsAs E p t (Outside start count) D) := by
  have hsize := hm.geom.size
  have hdata := hm.geom.data
  simp only [maxReservedSector, swapDataOffset, sector8M] at hsize hdata
  constructor
  · intro s' h
    obtain ⟨index, s₁, hi, hal, hd, hswap, -, -, hdisk⟩ := swapRecreate_moves hm h
    rw [rereadsAs_iff hal, hd, hswap, Nat.mod_eq_of_lt (by omega), Option.some.injEq]
    constructor
    · rintro ⟨hD, -⟩ i -
      rw [hD]
    · intro hD
      have hD : reread E p s₁ = D := funext fun i => hD i trivial
      exact ⟨hD, fun i => by rw [hdisk, hD]⟩
  · intro start count buf s' h
    obtain ⟨t, t', hfail, hmove, hwrite⟩ := swapWrite_steps h
    obtain ⟨d, -, hu⟩ := swapWrite'_spec hfail
    obtain ⟨index, s₁, -, hal, hd', -, hsec, -, -⟩ := swapRecreate_moves (hm.upd hu) hmove
    obtain ⟨hd, hswap, hdisk⟩ := swapWrite'_writes hd' hsec hwrite
    have hpast : (∀ t, (swapWrite' E p start count buf).run s = some (false, t) →
        RereadsAs E p t (Outside start count) D) ↔
        RereadsAs E p t (Outside start count) D := by
      refine ⟨fun hD => hD t hfail, fun hD t' ht' => ?_⟩
      obtain ⟨-, rfl⟩ := run_det hfail ht'
      exact hD
    rw [hpast, rereadsAs_iff hal, hd, hswap]
    refine forall_congr' fun i => forall_congr' fun hout => ?_
    -- outside of what is written there is what was read back
    rw [hdisk, Option.map_some, copyIn_outside hout, Option.some.injEq, and_self]

/-- A reserve at sector 1000 with one mapping: block 0 is in spare block 0, in memory and on the disk full of
ones. -/
def World.oneMapping : World :=
  { World.blank with
    core := { World.blank.core with
      head := { SwapHead.zero with bitmap := 1 }
      infoList := [0], infoNum := 1
      sectorReserveStart := 1000, sectorHead := 1000 + swapHeadOffest
      sectorTable := 1000 + swapTableOffset, sectorData := 1000 + swapDataOffset }
    heap := fun _ => ⟨entryFor (1000 + swapDataOffset) 0 0, some fun _ _ => 1⟩
    brk := 1
    disk := fun x => if 1000 + swapDataOffset ≤ x ∧ x < 1000 + swapDataOffset + 128 then fun _ => 1
      else zeroSector }

theorem movable_oneMapping : Movable World.oneMapping 0 fun _ _ => 1 := by
  refine ⟨⟨by decide, rfl, rfl, ⟨by decide, by decide⟩, ?_⟩, by decide, by decide, rfl, rfl⟩
  intro cap hcap
  exact absurd hcap (by simp [World.geom, World.oneMapping, World.blank])

/-- The data of a mapping that is moved by a device without failures. -/
theorem moves_keep_iff_healthy :
    ∃ s', (swapRecreate (Env.refusing fun _ _ => false) 0).run World.oneMapping = some (true, s') ∧
      (s'.heap 0).data = some (fun _ _ => 1) ∧
      ∀ i : Fin 128, s'.disk ((s'.heap 0).table.swapSec.toNat % 2 ^ 32 + i) = fun _ => 1 := by
  obtain ⟨s', h⟩ := run_of_result (a := true) (x := swapRecreate (Env.refusing fun _ _ => false) 0)
    (s := World.oneMapping) (by decide +kernel)
  obtain ⟨index, s₁, hal, -⟩ := swapRecreate_rereads (D := fun _ _ => 1) rfl h
  refine ⟨s', h, ((moves_keep_iff movable_oneMapping).1 s' h).2 ((rereadsAs_iff hal).2 fun i _ => ?_)⟩
  obtain ⟨b, hal⟩ := swapAllocNewBlock_alloc hal
  have hi := i.isLt
  have hbase : 1000 + swapDataOffset = 50152 := rfl
  have hswap : (s₁.heap 0).table.swapSec.toNat = 50152 :=
    congrArg (fun i => i.table.swapSec.toNat) (hal.upd.info 0)
  -- the block of the mapping is not free, so it was not tried
  have hdisk : s₁.disk (50152 + i) = fun _ => 1 := by
    rw [hal.upd.disk]
    · exact if_pos (by omega)
    · rintro ⟨j, hj, hbit, hx1, hx2⟩
      have hdata : World.oneMapping.view.geom.data = 50152 := rfl
      rw [hdata] at hx1 hx2
      obtain rfl : j = 0 := by omega
      exact absurd hbit (by decide +kernel)
  unfold reread
  rw [hswap, Nat.mod_eq_of_lt (by omega)]
  exact (if_pos rfl).trans hdisk

/-- A spare block whose first sector goes bad: a write to the second sector of the block clears the first,
which was still in memory. -/
theorem moves_lose :
    let E := Env.scarred fun lba => lba = 1000 + swapDataOffset
    ∃ s', (swapWrite E 0 1 1 fun _ => zeroSector).run World.oneMapping = some (.dirty, s') ∧ Outside 1 1 0 ∧
      (s'.heap 0).data.map (· 0) ≠ some fun _ => 1 := by
  intro E
  obtain ⟨u, h⟩ := run_of_result (a := (Ret.dirty, some (0 : BitVec 8))) (x := do
    let r ← swapWrite E 0 1 1 fun _ => zeroSector
    let s ← get
    return (r, (s.heap 0).data.map fun d => d 0 0)) (s := World.oneMapping) (by decide +kernel)
  obtain ⟨r, s', h1, h2⟩ := run_bind_iff.1 h
  rw [run_get_bind] at h2
  obtain ⟨he, -⟩ := run_pure_iff.1 h2
  obtain ⟨rfl, hbyte⟩ := Prod.mk.inj he
  refine ⟨s', h1, Or.inl (by decide), fun hD => ?_⟩
  obtain ⟨d, hd, hone⟩ := Option.map_eq_some_iff.1 hD
  rw [hd, Option.map_some] at hbyte
  rw [hone] at hbyte
  exact absurd hbyte (by decide)

/-! ## A move that fails -/

/-- The block `i` was tried, and the write of zeros to it failed. -/
def ProbeFailed (E : Env) (s : World) (i : ℕ) : Prop :=
  ∃ k u, probe E s k = some (u, i) ∧ E.kmalloc u.tick = true ∧
    (E.write (u.tick + 1) ⟨(s.core.sectorData + 128 * i) % 2 ^ 32, 128, 5⟩ fun _ => zeroSector).isOk = false

/-- There is memory for the zeros whenever the allocator may mark a block. -/
def ProbesHaveMemory (E : Env) (s : World) :
    Prop := ∀ k < 16, ∀ u i, probe E s k = some (u, i) → E.kmalloc u.tick = true

/-- With memory, the blocks that are marked are those that could not be written. -/
theorem probesHaveMemory_iff : ProbesHaveMemory E s ↔ ∀ j, Marked E s j → ProbeFailed E s j := by
  constructor
  · rintro hmem j ⟨k, hk, u, hu, hf⟩
    have hkm := hmem k hk u j hu
    unfold CheckFails at hf
    rw [hkm, Bool.true_and, (probing hu).data] at hf
    exact ⟨k, u, hu, hkm, hf⟩
  · intro hall k hk u i hu
    by_contra hkm
    have hf : CheckFails E u i := by
      unfold CheckFails
      rw [Bool.eq_false_iff.2 hkm, Bool.false_and]
    obtain ⟨k', u', hu', hkm', -⟩ := hall i ⟨k, hk, u, hu, hf⟩
    obtain ⟨rfl, rfl⟩ := probe_unique hu hu'
    exact hkm hkm'

/-- The mapping at `p` has the same place and the same data. -/
structure SameMapping (p : ℕ) (s s' : World) : Prop where
  index : (s'.heap p).table.index = (s.heap p).table.index
  swap : (s'.heap p).table.swapSec = (s.heap p).table.swapSec
  checksum : (s'.heap p).table.checksum = (s.heap p).table.checksum
  data : (s'.heap p).data = (s.heap p).data

theorem SameMapping.of_strip (h : (s'.heap p).strip = (s.heap p).strip) : SameMapping p s s' :=
  ⟨congrArg (fun i => i.table.index) h, congrArg (fun i => i.table.swapSec) h,
    congrArg (fun i => i.table.checksum) h,
    congrArg (fun i => i.data) h⟩

/-- The bitmap changed only by bits that were set for spare blocks to which the write of zeros had failed. -/
def OnlyFailedProbes (E : Env) (s s' : World) : Prop :=
  ∀ j, s'.core.head.bitmap.getLsbD j ≠ s.core.head.bitmap.getLsbD j →
    s'.core.head.bitmap.getLsbD j = true ∧ ProbeFailed E s j

theorem onlyFailedProbes_iff (h : ∀ j, s'.core.head.bitmap.getLsbD j = true ↔
    s.core.head.bitmap.getLsbD j = true ∨ Marked E s j) : OnlyFailedProbes E s s' ↔ ProbesHaveMemory E s := by
  rw [probesHaveMemory_iff]
  constructor
  · intro hall j hm
    have hset := (h j).2 (Or.inr hm)
    exact (hall j (by rw [hset, hm.free]; simp)).2
  · intro hall j hne
    by_cases hm : Marked E s j
    · exact ⟨(h j).2 (Or.inr hm), hall j hm⟩
    · refine absurd (Bool.eq_iff_iff.2 ((h j).trans ?_)) hne
      simp [hm]

/-- The spare block `index` is where the mapping at `p` is, in every field of the entry. -/
def SamePlace (s : World) (p index : ℕ) : Prop :=
  let t := (s.heap p).table.assign s.core.sectorData index
  t.index = (s.heap p).table.index ∧ t.swapSec = (s.heap p).table.swapSec ∧ t.checksum = (s.heap p).table.checksum

/-- What a failed move leaves, if it got a spare block. -/
theorem swapRecreate_fails {D : Block} {index : ℕ} {s₁ : World} (hd : (s.heap p).data = some D)
    (hroom : s.core.infoNum < maxSwapBlockForUse) (hal : (swapAllocNewBlock E).run s = some (some index, s₁))
    (h : (swapRecreate E p).run s = some (false, s')) :
    (s'.heap p).strip = SwapInfo.strip ⟨(s.heap p).table.assign s.core.sectorData index, some (reread E p s₁)⟩ ∧
      s'.core.head.bitmap = bitmapClear s₁.core.head.bitmap index := by
  unfold swapRecreate at h
  rw [run_get_bind, if_neg (Nat.not_le.2 hroom), run_bind_of hal] at h
  dsimp only at h
  obtain ⟨b, hupd⟩ := swapAllocNewBlock_alloc hal
  obtain ⟨u, s₂, h3, h4⟩ := run_bind_iff.1 h
  have hinfo₁ : (s₁.heap p).strip = (s.heap p).strip := hupd.upd.info p
  have hd₁ : (s₁.heap p).data = some D := (congrArg SwapInfo.data hinfo₁).trans hd
  obtain ⟨-, hheap₂⟩ := reread_run hd₁ h3
  obtain ⟨d, hr⟩ := reread_spec (A := FreeArea s.view) h3
  have hg₂ : s₂.geom = s.geom := hr.geom.trans hupd.upd.geom
  have hbit₂ : s₂.core.head.bitmap = s₁.core.head.bitmap := hr.bitmap
  rw [run_modify_bind] at h4
  obtain ⟨ok, s₄, h5, h6⟩ := run_bind_iff.1 h4
  cases ok with
  | true =>
    rw [if_pos rfl] at h6
    exact absurd (run_pure_iff.1 h6).1 (by simp)
  | false =>
    rw [if_neg (by simp), run_modify_bind] at h6
    obtain ⟨-, rfl⟩ := run_pure_iff.1 h6
    -- whichever of the flushes fails, memory stays as it is
    have hview : s₄.view = (s₂.setInfo p { s₂.heap p with
        table := (s₂.heap p).table.assign s₂.core.sectorData index }).view := by
      obtain ⟨ok1, t₁, g1, g2⟩ := run_bind_iff.1 h5
      have hv1 := (flushSwapInfoData_dev g1).view
      cases ok1 with
      | false =>
        obtain ⟨-, rfl⟩ := run_pure_iff.1 g2
        exact hv1
      | true =>
        rw [if_pos rfl] at g2
        obtain ⟨ok2, t₂, g3, g4⟩ := run_bind_iff.1 g2
        obtain ⟨rfl, htab⟩ := flushSwapInfoTable_dev g3
        rw [if_pos rfl] at g4
        exact (flushSwapHead_dev g4).view.trans (htab.view.trans hv1)
    constructor
    · have hinfo : (s₄.heap p).strip = _ := congrArg (fun v => v.info p) hview
      show (s₄.heap p).strip = _
      rw [hinfo, view_setInfo, View.setInfo_info_self, hheap₂, show s₂.core.sectorData = s.core.sectorData from
        congrArg Geom.data hg₂]
      have htab : { (s₁.heap p).table with saveSec := 0 } = { (s.heap p).table with saveSec := 0 } :=
        congrArg SwapInfo.table hinfo₁
      dsimp only
      rw [← assign_strip (s₁.heap p).table 0, htab, assign_strip]
    · have hbit₄ : s₄.core.head.bitmap = s₂.core.head.bitmap := congrArg View.bitmap hview
      show bitmapClear s₄.core.head.bitmap index = _
      rw [hbit₄, hbit₂]

/-- The bitmap after the block that was handed out has been given back. -/
theorem given_back_bits {index : ℕ} {s₁ : World} (hal : (swapAllocNewBlock E).run s = some (some index, s₁))
    (hbit : s'.core.head.bitmap = bitmapClear s₁.core.head.bitmap index) (j : ℕ) :
    s'.core.head.bitmap.getLsbD j = true ↔ s.core.head.bitmap.getLsbD j = true ∨ Marked E s j := by
  obtain ⟨hbits, hfresh⟩ := swapAllocNewBlock_bits hal
  obtain ⟨b, hupd⟩ := swapAllocNewBlock_alloc hal
  have hfree : s.core.head.bitmap.getLsbD index = false := (hupd.fresh index rfl).2.1
  rw [hbit, bitmapClear_getLsbD, Bool.and_eq_true, hbits, Bool.not_eq_true', decide_eq_false_iff_not,
    Option.some.injEq]
  constructor
  · rintro ⟨hs | rfl | hm, hne⟩
    · exact Or.inl hs
    · exact absurd rfl hne
    · exact Or.inr hm
  · rintro (hs | hm)
    · refine ⟨Or.inl hs, ?_⟩
      rintro rfl
      rw [hfree] at hs
      exact absurd hs (by simp)
    · refine ⟨Or.inr (Or.inr hm), ?_⟩
      rintro rfl
      exact hfresh _ rfl hm

/-- The mapping after its entry has been assigned to block `index`, with the data `d`. -/
theorem sameMapping_iff {D d : Block} {index : ℕ} (hd : (s.heap p).data = some D)
    (hinfo : (s'.heap p).strip = SwapInfo.strip ⟨(s.heap p).table.assign s.core.sectorData index, some d⟩) :
    SameMapping p s s' ↔ SamePlace s p index ∧ ∀ i, d i = D i := by
  have hdata : (s'.heap p).data = some d := congrArg (fun i => i.data) hinfo
  have hindex := congrArg (fun i => i.table.index) hinfo
  have hswap := congrArg (fun i => i.table.swapSec) hinfo
  have hsum := congrArg (fun i => i.table.checksum) hinfo
  constructor
  · rintro ⟨h1, h2, h3, h4⟩
    rw [hdata, hd, Option.some.injEq] at h4
    exact ⟨⟨hindex.symm.trans h1, hswap.symm.trans h2, hsum.symm.trans h3⟩, fun i => by rw [h4]⟩
  · rintro ⟨⟨h1, h2, h3⟩, h4⟩
    refine ⟨hindex.trans h1, hswap.trans h2, hsum.trans h3, ?_⟩
    rw [hdata, hd, Option.some.injEq]
    exact funext h4

/-- **Failed moves.** When `swap_recreate` returns -1, the entry and the data of the mapping are what they
were, and the bitmap has only lost blocks to which a write failed, exactly if the limit of mappings was
reached, or the allocator had memory for its zeros and handed out no block (or none but the one the mapping
has, which read as the data). -/
theorem failed_move_iff {D : Block} (hd : (s.heap p).data = some D)
    (h : (swapRecreate E p).run s = some (false, s')) :
    (SameMapping p s s' ∧ OnlyFailedProbes E s s') ↔
      (maxSwapBlockForUse ≤ s.core.infoNum ∨ ProbesHaveMemory E s ∧
        ∀ index t, Granted E s index t → SamePlace s p index ∧ ∀ i, reread E p t i = D i) := by
  by_cases hroom : maxSwapBlockForUse ≤ s.core.infoNum
  · -- nothing was tried
    unfold swapRecreate at h
    rw [run_get_bind, if_pos hroom] at h
    obtain ⟨-, rfl⟩ := run_pure_iff.1 h
    exact ⟨fun _ => Or.inl hroom, fun _ => ⟨SameMapping.of_strip rfl, fun j hj => absurd rfl hj⟩⟩
  rw [or_iff_right hroom]
  have hrun := h
  unfold swapRecreate at h
  rw [run_get_bind, if_neg hroom] at h
  obtain ⟨o, s₁, h1, h2⟩ := run_bind_iff.1 h
  obtain ⟨hbits, -⟩ := swapAllocNewBlock_bits h1
  obtain ⟨b, hal⟩ := swapAllocNewBlock_alloc h1
  cases o with
  | none =>
    -- no block was found
    obtain ⟨-, rfl⟩ := run_pure_iff.1 h2
    have hprobes : OnlyFailedProbes E s s' ↔ ProbesHaveMemory E s :=
      onlyFailedProbes_iff fun j => by rw [hbits]; simp
    rw [hprobes]
    exact ⟨fun h => ⟨h.2, fun index t ht => absurd ht (swapAllocNewBlock_not_granted h1)⟩,
      fun h => ⟨SameMapping.of_strip (hal.upd.info p), h.1⟩⟩
  | some index =>
    obtain ⟨hinfo, hbit⟩ := swapRecreate_fails hd (Nat.lt_of_not_le hroom) h1 hrun
    have hprobes : OnlyFailedProbes E s s' ↔ ProbesHaveMemory E s :=
      onlyFailedProbes_iff (given_back_bits h1 hbit)
    have hall : (∀ index t, Granted E s index t → SamePlace s p index ∧ ∀ i, reread E p t i = D i) ↔
        SamePlace s p index ∧ ∀ i, reread E p s₁ i = D i := by
      obtain ⟨t, hgr, hcontents⟩ := swapAllocNewBlock_granted h1
      rw [reread_congr hcontents]
      refine ⟨fun hD => hD index t hgr, fun hD index' t' h' => ?_⟩
      obtain ⟨rfl, rfl⟩ := hgr.unique h'
      exact hD
    rw [sameMapping_iff hd hinfo, hprobes, hall, and_comm]

/-- When no spare block takes the zeros, a move changes nothing but the bitmap. -/
theorem failed_move_iff_refused :
    let E := Env.refusing fun c _ => c.count = 128
    ∃ s', (swapRecreate E 0).run World.oneMapping = some (false, s') ∧ SameMapping 0 World.oneMapping s' ∧
      OnlyFailedProbes E World.oneMapping s' := by
  intro E
  obtain ⟨s', h⟩ := run_of_result (a := false) (x := swapRecreate E 0) (s := World.oneMapping) (by decide +kernel)
  obtain ⟨s₁, hal⟩ := run_of_result (a := none) (x := swapAllocNewBlock E) (s := World.oneMapping)
    (by decide +kernel)
  refine ⟨s', h, (failed_move_iff (D := fun _ _ => 1) rfl h).2 (Or.inr ⟨fun _ _ _ _ _ => rfl, ?_⟩)⟩
  exact fun index t ht => absurd ht (swapAllocNewBlock_not_granted hal)

/-- When the head cannot be written, the entry says block 1, which is free again. -/
theorem failed_move_changes :
    let E := Env.refusing fun c _ => c.lba = 1000 + swapHeadOffest + swapHeadBackupOffest
    ∃ s', (swapRecreate E 0).run World.oneMapping = some (false, s') ∧ (World.oneMapping.heap 0).table.index = 0 ∧
      (s'.heap 0).table.index = 1 ∧ s'.core.head.bitmap = 1 := by
  intro E
  obtain ⟨u, h⟩ := run_of_result (a := (false, (1 : BitVec 32), (1 : BitVec 1024))) (x := do
    let ok ← swapRecreate E 0
    let s ← get
    return (ok, (s.heap 0).table.index, s.core.head.bitmap)) (s := World.oneMapping) (by decide +kernel)
  obtain ⟨ok, s', h1, h2⟩ := run_bind_iff.1 h
  rw [run_get_bind] at h2
  obtain ⟨he, -⟩ := run_pure_iff.1 h2
  simp only [Prod.mk.injEq] at he
  obtain ⟨rfl, hindex, hbitmap⟩ := he
  exact ⟨s', h1, rfl, hindex.symm, hbitmap.symm⟩

end ScsiSwap
