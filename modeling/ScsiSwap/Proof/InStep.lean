import ScsiSwap.Proof.Persisted

/-!
# The driver in step with its disk

What the parts of a request do to the records on the disk, on a device that takes all head and table
writes (`Env.TakesRecords`).

* `World.Holding R j K`: the driver's head is the one on the disk, the blocks in `K` are marked in both;
* `flushSwapHead_safe`, `flushSwapInfoTable_safe`: all records on the way are in order, and more blocks are
  marked afterwards;
* `swapCreate_safe`, `enterCreated_safe`: a mapping is entered after its block has been marked;
* `coreWriteBlock_safe`, `coreReadBlock_safe`: a round keeps the driver in step, if it moves no mapping of the
  list (`Stays`). `swap_recreate` writes the table first and the head last.
-/

namespace ScsiSwap

open StateOption

variable {E : Env} {s s' : World} {R j : ℕ} {K K' : ℕ → Prop}

/-! ## Single sectors -/

/-- The device takes what is written to heads and tables. -/
def Env.TakesRecords (E : Env) (R : ℕ) : Prop := ∀ t x buf, Records R x → E.write t ⟨x, 1, 5⟩ buf = .ok

theorem writeRecord {w : Writer} {sector : ℕ} {b : Sector} {a : Bool} (hE : E.TakesRecords R)
    (hx : Records R (sector % 2 ^ 32)) (h : (hdWriteSectorRetry E w sector 1 fun _ => b).run s = some (a, s')) :
    a = true ∧ s'.view = s.view ∧ s'.disk = Function.update s.disk (sector % 2 ^ 32) b ∧
      ((∃ j < 128, ∃ K, Persisted R j K s'.disk) → Sends (Sent.Safe R) s s') := by
  obtain ⟨hok, hd⟩ := hdWriteSector_one h
  rw [hE _ _ _ hx] at hok hd
  refine ⟨hok, (hdWriteSector_dev h).view, hd, fun hp => ?_⟩
  have h' : (hdWriteSector E w 5 sector 1 fun _ => b).run s = some (a, s') := h
  rw [hdWriteSector_run] at h'
  obtain ⟨-, rfl⟩ := Prod.mk.inj (Option.some.inj h')
  refine ⟨[_], rfl, .cons .nil fun x hx => if_neg hx, fun c hc => ?_⟩
  obtain rfl := List.mem_singleton.1 hc
  exact ⟨hp, Or.inl rfl⟩

/-! ## The driver in step with its disk -/

/-- The driver's head is the one on the disk, in block `j`, as far as the blocks in `K` go. -/
structure World.Holding (R j : ℕ) (K : ℕ → Prop) (s : World) : Prop where
  lt : j < 128
  laid : s.geom.Laid R
  sector : s.geom.head = R + (swapHeadOffest + 128 * j)
  named : s.view.head.Named
  bits : ∀ i, K i → s.view.bitmap.getLsbD i = true
  disk : Persisted R j K s.disk

/-- The mappings of the list are for blocks in `K`. -/
def View.UsesOnly (K : ℕ → Prop) (v : View) : Prop := ∀ p ∈ v.list, K (v.info p).table.index.toNat

namespace World.Holding

theorem size (h : s.Holding R j K) : R + maxReservedSector ≤ 2 ^ 32 := h.laid.reserve ▸ h.laid.ok.size

theorem table (h : s.Holding R j K) : s.geom.table = R + swapTableOffset := by
  rw [h.laid.ok.table, h.laid.reserve]

theorem room (h : s.Holding R j K) : s.geom.data + 128 * maxSwapBlock ≤ 2 ^ 64 := by
  have hdata := h.laid.ok.data
  have hsize := h.laid.ok.size
  simp only [maxReservedSector, swapDataOffset, sector8M, maxSwapBlock] at hdata hsize ⊢
  omega

/-- Commands for other sectors, while memory changes elsewhere or gains bits. -/
theorem spares (h : s.Holding R j K) (hs : Sends (Sent.Spares R) s s') (hg : s'.view.geom = s.view.geom)
    {b : BitVec 1024} (hh : s'.view.head = { s.view.head with bitmap := b }) (hb : BitsLe s.view.bitmap b) :
    Sends (Sent.Safe R) s s' ∧ s'.Holding R j K := by
  obtain ⟨hsafe, hkeep⟩ := hs.spares h.size h.lt h.disk
  have hg' : s'.geom = s.geom := hg
  refine ⟨hsafe, h.lt, hg' ▸ h.laid, hg' ▸ h.sector, ?_, fun i hi => ?_, hkeep K h.disk⟩
  · rw [hh]
    exact ⟨h.named.head, h.named.status⟩
  · unfold View.bitmap
    rw [hh]
    exact hb i (h.bits i hi)

/-- The same without a change of memory. -/
theorem dev (h : s.Holding R j K) (hs : Sends (Sent.Spares R) s s') (hv : s'.view = s.view) :
    Sends (Sent.Safe R) s s' ∧ s'.Holding R j K :=
  h.spares hs (by rw [hv]) (by rw [hv]; rfl) (BitsLe.refl _)

theorem setBitmap (h : s.Holding R j K) {b : BitVec 1024} (hb : ∀ i, K i → b.getLsbD i = true) :
    (s.setBitmap b).Holding R j K :=
  ⟨h.lt, h.laid, h.sector, ⟨h.named.head, h.named.status⟩, hb, h.disk⟩

end World.Holding

/-- Spare blocks and the log are elsewhere. -/
theorem Of.spares {ws : List Writer} {g : Geom} {c : Sent} (h : Of ws g c) (hg : g.Laid R)
    (hw : ∀ w ∈ ws, w = .block ∨ w = .log) : c.Spares R := by
  intro x hx hc
  have hreg := h.2.inRegion hg x hc
  have hne : c.writer ≠ .user := by rcases hw _ h.1 with hw | hw <;> rw [hw] <;> simp
  rcases hx with hx | hx
  · have := region_disjoint hne (by simp) hreg hx
    rcases hw _ h.1 with hw | hw <;> rw [hw] at this <;> exact absurd this (by simp)
  · have := region_disjoint hne (by simp) hreg hx
    rcases hw _ h.1 with hw | hw <;> rw [hw] at this <;> exact absurd this (by simp)

/-! ## The head -/

/-- **Writing the head** keeps what the disk holds, and adds the bits that are set in memory. -/
theorem flushSwapHead_safe {a : Bool} (hE : E.TakesRecords R) (h : s.Holding R j K)
    (hrun : (flushSwapHead E).run s = some (a, s')) :
    a = true ∧ Sends (Sent.Safe R) s s' ∧ s'.view = s.view ∧
      ∀ K', (∀ i, K i → K' i) → (∀ i, K' i → s.view.bitmap.getLsbD i = true) → Persisted R j K' s'.disk := by
  have hR := h.size
  have hj := h.lt
  obtain ⟨hrec, hrec'⟩ := records_head hj
  have hview := (flushSwapHead_dev hrun).view
  unfold flushSwapHead at hrun
  rw [run_get_bind] at hrun
  dsimp only at hrun
  rw [run_set_bind] at hrun
  obtain ⟨b, s₁, h1, h2⟩ := run_bind_iff.1 hrun
  have hsec : s.core.sectorHead = R + (swapHeadOffest + 128 * j) := h.sector
  rw [hsec] at h1 h2
  rw [Nat.add_assoc R] at h2
  obtain ⟨-, -, hd1, hs1⟩ := writeRecord hE (records_of_offset hR hrec) h1
  obtain ⟨rfl, -, hd2, hs2⟩ := writeRecord hE (records_of_offset hR hrec') h2
  have hn : s.core.head.Named := ⟨h.named.head, h.named.status⟩
  -- the master carries the new bits, the backup changes nothing
  have hp1 : ∀ K', (∀ i, K i → K' i) → (∀ i, K' i → s.view.bitmap.getLsbD i = true) →
      Persisted R j K' s₁.disk := by
    intro K' hK hb
    rw [hd1]
    exact h.disk.putHead hj hn.seal_ok hK hb
  have hp2 : ∀ K', (∀ i, K i → K' i) → (∀ i, K' i → s.view.bitmap.getLsbD i = true) →
      Persisted R j K' s'.disk := by
    intro K' hK hb
    refine (hp1 K' hK hb).congr (fun i hi => ?_) fun a ha k hk => ?_
    · rw [hd2, Function.update_of_ne fun he => absurd (addr_inj ?_ ?_ he) (by omega)]
      all_goals simp only [maxReservedSector, swapHeadOffest, sector8M]; omega
    · unfold area
      rw [hd2, Function.update_of_ne fun he => absurd (addr_inj ?_ ?_ he) ?_]
      all_goals
        simp only [maxReservedSector, swapHeadOffest, swapTableOffset, swapTableBackupOffset, sector8M,
          swapHeadBackupOffest] at *
        omega
  refine ⟨rfl, (hs1 ⟨j, hj, K, hp1 K (fun _ => id) h.bits⟩).trans (hs2 ⟨j, hj, K, hp2 K (fun _ => id) h.bits⟩),
    hview, hp2⟩

/-! ## The table -/

theorem usesOnly_zero : UsesOnly K zeroSector := by
  intro l hv
  rw [tableSlots_zero, zero_not_valid] at hv
  exact absurd hv (by simp)

theorem UsesOnly.put {b : Sector} (hb : UsesOnly K b) (l : Fin 8) {t : SwapTable} (ht : K t.index.toNat) :
    UsesOnly K (putTable b l t) := by
  intro m hv
  rw [tableSlots_put] at hv ⊢
  by_cases hm : m = l
  · subst hm
    rw [Function.update_self]
    exact ht
  · rw [Function.update_of_ne hm] at hv ⊢
    exact hb m hv

/-- One sector of a table. The first attempt succeeds. -/
theorem writeSkip_safe (hE : E.TakesRecords R) (hR : R + maxReservedSector ≤ 2 ^ 32) (hj : j < 128) {b : Sector}
    {limit fuel c m t : ℕ} (hc : c = swapTableOffset ∨ c = swapTableBackupOffset) (hm : m < 1000)
    (hb : UsesOnly K b)
    (hp : Persisted R j K s.disk) (h : (writeSkip E b limit fuel (R + (c + m))).run s = some (t, s')) :
    t = R + (c + (m + 1)) ∧ s'.view = s.view ∧ Sends (Sent.Safe R) s s' ∧ Persisted R j K s'.disk := by
  unfold writeSkip at h
  obtain ⟨ok, s₁, h1, h2⟩ := run_bind_iff.1 h
  obtain ⟨rfl, hv, hd, hs⟩ := writeRecord hE (records_of_offset hR (records_table hc hm)) h1
  rw [if_pos (Or.inl rfl)] at h2
  obtain ⟨rfl, rfl⟩ := run_pure_iff.1 h2
  have hp' : Persisted R j K s'.disk := by
    rw [hd]
    exact hp.putTable hj hc hm hb
  exact ⟨rfl, hv, hs ⟨j, hj, K, hp'⟩, hp'⟩

/-- The same sector of both tables. -/
theorem flushTableSector_safe (hE : E.TakesRecords R) (hR : R + maxReservedSector ≤ 2 ^ 32)
    (hj : j < 128) {b : Sector}
    {m n : ℕ} {r : ℕ × ℕ} (hm : m < 1000) (hn : n < 1000) (hb : UsesOnly K b) (hp : Persisted R j K s.disk)
    (h : (flushTableSector E b (R + (swapTableOffset + m)) (R + (swapTableBackupOffset + n))).run s =
      some (r, s')) :
    r = (R + (swapTableOffset + (m + 1)), R + (swapTableBackupOffset + (n + 1))) ∧ s'.view = s.view ∧
      Sends (Sent.Safe R) s s' ∧ Persisted R j K s'.disk := by
  unfold flushTableSector at h
  rw [run_get_bind] at h
  dsimp only at h
  obtain ⟨t, s₁, h1, h2⟩ := run_bind_iff.1 h
  obtain ⟨u, s₂, h3, h4⟩ := run_bind_iff.1 h2
  obtain ⟨rfl, rfl⟩ := run_pure_iff.1 h4
  obtain ⟨rfl, hv1, hs1, hp1⟩ := writeSkip_safe hE hR hj (Or.inl rfl) hm hb hp h1
  obtain ⟨rfl, hv2, hs2, hp2⟩ := writeSkip_safe hE hR hj (Or.inr rfl) hn hb hp1 h3
  exact ⟨rfl, hv2.trans hv1, hs1.trans hs2, hp2⟩

/-- The loop over the list. -/
theorem flushTableLoop_safe (hE : E.TakesRecords R) (hR : R + maxReservedSector ≤ 2 ^ 32) (hj : j < 128) :
    ∀ {ps : List ℕ} {i m n : ℕ} {b : Sector} {s s' : World} {u : PUnit},
    (flushTableLoop E ps i b (R + (swapTableOffset + m)) (R + (swapTableBackupOffset + n))).run s = some (u, s') →
    m + ps.length < 1000 → n + ps.length < 1000 → (i ≠ 0 → UsesOnly K b) →
    (∀ p ∈ ps, K (s.view.info p).table.index.toNat) →
    Persisted R j K s.disk → Sends (Sent.Safe R) s s' ∧ Persisted R j K s'.disk := by
  intro ps
  induction ps with
  | nil =>
    intro i m n b s s' u h hm hn hb _ hp
    unfold flushTableLoop at h
    split at h
    · rename_i hi
      obtain ⟨r, s₁, h1, h2⟩ := run_bind_iff.1 h
      obtain ⟨-, rfl⟩ := run_pure_iff.1 h2
      exact (flushTableSector_safe hE hR hj hm hn (hb hi) hp h1).2.2
    · obtain ⟨-, rfl⟩ := run_pure_iff.1 h
      exact ⟨.refl _, hp⟩
  | cons p ps ih =>
    intro i m n b s s' u h hm hn hb hK hp
    simp only [List.length_cons] at hm hn
    unfold flushTableLoop at h
    rw [run_get_bind] at h
    dsimp only at h
    rw [run_set_bind] at h
    set s₁ := s.setInfo p { s.heap p with
      table := { (s.heap p).table with saveSec := .ofNat 64 (R + (swapTableOffset + m)) } } with hs1
    have hv1 : s₁.view = s.view := (setInfo_saveSec_dev (A := fun _ => False) p _).view
    have hb' : UsesOnly K (putTable (if i = 0 then zeroSector else b) (.ofNat 8 i)
        { (s.heap p).table with saveSec := .ofNat 64 (R + (swapTableOffset + m)) }) := by
      refine UsesOnly.put ?_ _ (hK p List.mem_cons_self)
      split
      · exact usesOnly_zero
      · exact hb ‹_›
    have hK' : ∀ q ∈ ps, K (s₁.view.info q).table.index.toNat := fun q hq => by
      rw [hv1]
      exact hK q (List.mem_cons_of_mem _ hq)
    split at h
    · obtain ⟨r, s₂, h1, h2⟩ := run_bind_iff.1 h
      obtain ⟨rfl, hv2, hs2, hp2⟩ :=
        flushTableSector_safe hE hR hj (show m < 1000 by omega) (show n < 1000 by omega) hb'
        (show Persisted R j K s₁.disk from hp) h1
      obtain ⟨hs3, hp3⟩ := ih h2 (by omega) (by omega) (fun h => absurd rfl h) (by rw [hv2]; exact hK') hp2
      exact ⟨Quiet.trans_sends (by exact ⟨rfl, rfl⟩) (hs2.trans hs3), hp3⟩
    · obtain ⟨hs3, hp3⟩ := ih h (by omega) (by omega) (fun _ => hb') hK' hp
      exact ⟨Quiet.trans_sends (by exact ⟨rfl, rfl⟩) hs3, hp3⟩

/-- **Writing the table**, if the disk knows all blocks of the list. -/
theorem flushSwapInfoTable_safe {a : Bool} (hE : E.TakesRecords R) (h : s.Holding R j K)
    (hl : s.view.list.length < 900)
    (hu : s.view.UsesOnly K) (hrun : (flushSwapInfoTable E).run s = some (a, s')) :
    a = true ∧ Sends (Sent.Safe R) s s' ∧ s'.Holding R j K ∧ s'.view = s.view := by
  obtain ⟨rfl, hdev⟩ := flushSwapInfoTable_dev hrun
  have hv := hdev.view
  unfold flushSwapInfoTable at hrun
  rw [run_get_bind] at hrun
  obtain ⟨u, s₁, h1, h2⟩ := run_bind_iff.1 hrun
  obtain ⟨-, rfl⟩ := run_pure_iff.1 h2
  rw [show s.core.sectorTable = R + (swapTableOffset + 0) from h.table,
    show s.core.sectorReserveStart = R from h.laid.reserve] at h1
  have hl' : s.core.infoList.length < 900 := hl
  obtain ⟨hs, hp⟩ := flushTableLoop_safe hE h.size h.lt (n := 0) h1 (by omega) (by omega)
    (fun h => absurd rfl h) hu h.disk
  have hg : s'.geom = s.geom := congrArg View.geom hv
  exact ⟨rfl, hs, ⟨h.lt, hg ▸ h.laid, hg ▸ h.sector, hv ▸ h.named, hv ▸ h.bits, hp⟩, hv⟩

/-! ## Mappings -/

/-- An allocation writes spare blocks only. -/
theorem swapAllocNewBlock_safe {a : Option ℕ} (h : s.Holding R j K)
    (hrun : (swapAllocNewBlock E).run s = some (a, s')) : Sends (Sent.Safe R) s s' ∧ s'.Holding R j K := by
  obtain ⟨b, hal⟩ := swapAllocNewBlock_alloc hrun
  have hs := (swapAllocNewBlock_sends hrun).mono fun c hc => hc.spares h.laid (by simp)
  exact h.spares hs (by rw [hal.upd.view]; rfl) (by rw [hal.upd.view]; rfl) hal.bits

theorem swapCreate'_safe {p src off : ℕ} {len : ℤ} {a : Bool} (h : s.Holding R j K)
    (hp : s.view.info p = ⟨SwapTable.zero, some fun _ => zeroSector⟩)
    (hrun : (swapCreate' E p src off len).run s = some (a, s')) :
    Sends (Sent.Safe R) s s' ∧ s'.Holding R j K ∧
      (a = true → s'.view.bitmap.getLsbD (s'.heap p).table.index.toNat = true) := by
  have hs := (swapCreate'_sends hrun).2.mono fun c hc => hc.spares h.laid (by simp)
  rcases swapCreate'_spec hrun hp with ⟨rfl, b, hal⟩ | ⟨rfl, b, index, d, hc, -⟩
  · obtain ⟨h1, h2⟩ := h.spares hs (by rw [hal.upd.view]; rfl) (by rw [hal.upd.view]; rfl) hal.bits
    exact ⟨h1, h2, by simp⟩
  · obtain ⟨h1, h2⟩ := h.spares hs (by rw [hc.upd.view]; rfl) (by rw [hc.upd.view]; rfl) hc.bits
    refine ⟨h1, h2, fun _ => ?_⟩
    have hi : (s'.heap p).table.index.toNat = index := by
      have hinfo := hc.upd.info p
      rw [View.setInfo_info_self] at hinfo
      exact (congrArg (fun i => i.table.index.toNat) hinfo).trans (entryFor_index hc.fresh.1)
    rw [hi, hc.upd.view]
    exact hc.fresh.2.2

/-- The blocks in `K`, and that of the mapping at `p`. -/
def World.plus (s : World) (K : ℕ → Prop) (p : ℕ) (i : ℕ) : Prop := K i ∨ i = (s.heap p).table.index.toNat

/-- **A new mapping** has its block marked in the head on the disk. -/
theorem swapCreateTry_safe {start count : ℕ} {a : ℕ ⊕ LogCreateFailed} (hE : E.TakesRecords R)
    (h : s.Holding R j K) (hrun : (swapCreateTry E start count).run s = some (a, s')) :
    Sends (Sent.Safe R) s s' ∧ s'.Holding R j K ∧ ∀ p, a = .inl p → s'.Holding R j (s'.plus K p) := by
  unfold swapCreateTry at hrun
  rw [run_get_bind] at hrun
  split at hrun
  · obtain ⟨rfl, rfl⟩ := run_pure_iff.1 hrun
    exact ⟨.refl _, h, by simp⟩
  obtain ⟨o, s₁, h1, h2⟩ := run_bind_iff.1 hrun
  have hq := swapAllocInfo_quiet _ _ _ h1
  rcases swapAllocInfo_spec (A := fun _ => False) h1 with ⟨rfl, hd⟩ | ⟨rfl, hu⟩
  · obtain ⟨rfl, rfl⟩ := run_pure_iff.1 h2
    obtain ⟨hs, hh⟩ := h.spares hq.sends (by rw [hd.view]) (by rw [hd.view]; rfl) (BitsLe.refl _)
    exact ⟨hs, hh, by simp⟩
  obtain ⟨hs1, hh1⟩ := h.spares hq.sends (by rw [hu.view]; rfl) (by rw [hu.view]; rfl) (BitsLe.refl _)
  dsimp only at h2
  obtain ⟨ok, s₂, h3, h4⟩ := run_bind_iff.1 h2
  have hal := swapSectorAlign_le start
  have hlt := lt_swapSectorAlign_add start
  rw [show ((start : ℤ) - (swapSectorAlign start : ℕ)) = ((start - swapSectorAlign start : ℕ) : ℤ) by omega,
    s32_ofNat (by omega)] at h3
  obtain ⟨hs2, hh2, hbit⟩ := swapCreate'_safe hh1 (by rw [hu.view]; exact alloc_info_self ..) h3
  cases ok with
  | false =>
    obtain ⟨rfl, rfl⟩ := run_pure_iff.1 h4
    exact ⟨hs1.trans hs2, hh2, by simp⟩
  | true =>
    rw [if_pos rfl] at h4
    obtain ⟨ok, s₃, h5, h6⟩ := run_bind_iff.1 h4
    obtain ⟨rfl, hs3, hv3, hp3⟩ := flushSwapHead_safe hE hh2 h5
    obtain ⟨rfl, rfl⟩ := run_pure_iff.1 h6
    have hg3 : s'.geom = s₂.geom := congrArg View.geom hv3
    have hhold : ∀ K', (∀ i, K i → K' i) → (∀ i, K' i → s₂.view.bitmap.getLsbD i = true) → s'.Holding R j K' :=
      fun K' hK hb => ⟨hh2.lt, hg3 ▸ hh2.laid, hg3 ▸ hh2.sector, hv3 ▸ hh2.named, hv3 ▸ hb, hp3 K' hK hb⟩
    refine ⟨(hs1.trans hs2).trans hs3, hhold K (fun _ => id) hh2.bits, ?_⟩
    rintro p ⟨⟩
    refine hhold _ (fun _ => Or.inl) fun i hi => ?_
    rcases hi with hi | rfl
    · exact hh2.bits i hi
    · have hsame : (s'.heap s.brk).table.index = (s₂.heap s.brk).table.index :=
        congrArg (fun v : View => (v.info s.brk).table.index) hv3
      rw [hsame]
      exact hbit rfl

theorem World.plus_congr {p : ℕ} (hv : s'.view = s.view) : s'.plus K p = s.plus K p := by
  have hsame : (s'.heap p).table.index = (s.heap p).table.index :=
    congrArg (fun v : View => (v.info p).table.index) hv
  unfold World.plus
  rw [hsame]

theorem swapCreate_safe {start count : ℕ} {a : Option ℕ} (hE : E.TakesRecords R) (h : s.Holding R j K)
    (hrun : (swapCreate E start count).run s = some (a, s')) :
    Sends (Sent.Safe R) s s' ∧ s'.Holding R j K ∧ ∀ p, a = some p → s'.Holding R j (s'.plus K p) := by
  unfold swapCreate at hrun
  obtain ⟨r, s₁, h1, h2⟩ := run_bind_iff.1 hrun
  obtain ⟨hs1, hh1, hnew⟩ := swapCreateTry_safe hE h h1
  -- the entry in the log
  have hlog : ∀ {ty re sr ds co x t}, (scsiSwapLogPush E ty re sr ds co).run s₁ = some (x, t) →
      Sends (Sent.Spares R) s₁ t ∧ t.view = s₁.view := fun hl =>
    ⟨(scsiSwapLogPush_sends hl).mono fun c hc => hc.spares hh1.laid (by simp), (scsiSwapLogPush_dev hl).view⟩
  cases r with
  | inr e =>
    obtain ⟨x, s₂, h3, h4⟩ := run_bind_iff.1 h2
    obtain ⟨rfl, rfl⟩ := run_pure_iff.1 h4
    obtain ⟨hs2, hv2⟩ := hlog h3
    obtain ⟨hs2, hh2⟩ := hh1.dev hs2 hv2
    exact ⟨hs1.trans hs2, hh2, by simp⟩
  | inl p =>
    dsimp only at h2
    rw [run_get_bind] at h2
    obtain ⟨x, s₂, h3, h4⟩ := run_bind_iff.1 h2
    obtain ⟨rfl, rfl⟩ := run_pure_iff.1 h4
    obtain ⟨hs2, hv2⟩ := hlog h3
    refine ⟨hs1.trans (hh1.dev hs2 hv2).1, (hh1.dev hs2 hv2).2, ?_⟩
    rintro p' ⟨⟩
    rw [World.plus_congr hv2]
    exact ((hnew p rfl).dev hs2 hv2).2

theorem repairAndCreate_safe {start count : ℕ} {a : Option ℕ} (hE : E.TakesRecords R) (h : s.Holding R j K)
    (hrun : (repairAndCreate E start count).run s = some (a, s')) :
    Sends (Sent.Safe R) s s' ∧ s'.Holding R j K ∧ ∀ p, a = some p → s'.Holding R j (s'.plus K p) := by
  unfold repairAndCreate at hrun
  obtain ⟨x, s₁, h1, h2⟩ := run_bind_iff.1 hrun
  obtain ⟨hs1, hh1⟩ := h.dev (swapRepairSuccessiveSectors_quiet _ _ _ h1).sends
    (swapRepairSuccessiveSectors_dev (A := fun _ => False) h1).view
  rw [run_get_bind] at h2
  split at h2
  · obtain ⟨rfl, rfl⟩ := run_pure_iff.1 h2
    exact ⟨hs1, hh1, by simp⟩
  · obtain ⟨hs2, hh2, hnew⟩ := swapCreate_safe hE hh1 h2
    exact ⟨hs1.trans hs2, hh2, hnew⟩

/-- Writing into a spare block. -/
theorem swapWrite'_safe {p start count : ℕ} {buf : ℕ → Sector} {a : Bool} (h : s.Holding R j K)
    (hp : (s.heap p).table.InPlace s.geom) (hrun : (swapWrite' E p start count buf).run s = some (a, s')) :
    Sends (Sent.Safe R) s s' ∧ s'.Holding R j K := by
  obtain ⟨d, -, hu⟩ := swapWrite'_spec hrun
  have hs := (swapWrite'_sends hrun hp).mono fun c hc => hc.spares h.laid (by simp)
  exact h.spares hs (by rw [hu.view]; rfl) (by rw [hu.view]; rfl) (BitsLe.refl _)

theorem View.UsesOnly.setInfo {v : View} (h : v.UsesOnly K) {p : ℕ} (hp : p ∉ v.list) (i : SwapInfo) :
    (v.setInfo p i).UsesOnly K := by
  intro q hq
  have hqp : q ≠ p := by
    rintro rfl
    exact hp hq
  rw [View.setInfo_info_of_ne _ _ hqp]
  exact h q hq

/-- **A move** of a mapping that is not in the list leaves no trace in the table. -/
theorem swapRecreate_safe {p : ℕ} {a : Bool} (hE : E.TakesRecords R) (h : s.Holding R j K)
    (hu : s.view.UsesOnly K)
    (hl : s.view.list.length ≤ 256) (hp : p ∉ s.view.list) (hsize : (s.heap p).table.secSize = 128)
    (hrun : (swapRecreate E p).run s = some (a, s')) : Sends (Sent.Safe R) s s' ∧ s'.Holding R j K := by
  unfold swapRecreate at hrun
  rw [run_get_bind] at hrun
  split at hrun
  · obtain ⟨-, rfl⟩ := run_pure_iff.1 hrun
    exact ⟨.refl _, h⟩
  obtain ⟨o, s₁, h1, h2⟩ := run_bind_iff.1 hrun
  obtain ⟨hs1, hh1⟩ := swapAllocNewBlock_safe h h1
  obtain ⟨b, hal⟩ := swapAllocNewBlock_alloc h1
  cases o with
  | none =>
    obtain ⟨-, rfl⟩ := run_pure_iff.1 h2
    exact ⟨hs1, hh1⟩
  | some index =>
    obtain ⟨hi, hfree, -⟩ := hal.fresh index rfl
    dsimp only at h2
    obtain ⟨u, s₂, h3, h4⟩ := run_bind_iff.1 h2
    rw [run_modify_bind] at h4
    obtain ⟨ok, s₄, h5, h6⟩ := run_bind_iff.1 h4
    obtain ⟨d, hr⟩ := reread_spec (A := FreeArea s.view) h3
    have hv2 : s₂.view = (s.view.setBitmap b).setData p d := by rw [hr.view, hal.upd.view]
    obtain ⟨hs2, hh2⟩ := hh1.spares (reread_quiet p _ _ _ h3).sends (by rw [hr.view]; rfl) (by rw [hr.view]; rfl)
      (BitsLe.refl _)
    set s₃ := s₂.setInfo p { s₂.heap p with table := (s₂.heap p).table.assign s₂.core.sectorData index } with hs3
    have hv3 : s₃.view = s₂.view.setInfo p
        { s₂.heap p with table := (s₂.heap p).table.assign s₂.core.sectorData index } :=
      view_setInfo ..
    have hh3 : s₃.Holding R j K := ⟨hh2.lt, hh2.laid, hh2.sector, hv3 ▸ hh2.named, hv3 ▸ hh2.bits, hh2.disk⟩
    have hu3 : s₃.view.UsesOnly K := by
      rw [hv3, hv2]
      exact (View.UsesOnly.setInfo (v := s.view.setBitmap b) hu hp _).setInfo hp _
    have hl3 : s₃.view.list = s.view.list := by
      rw [hv3, hv2]
      rfl
    have hb3 : s₃.view.bitmap = b := by
      rw [hv3, hv2]
      rfl
    have hplace : (s₃.heap p).table.InPlace s₃.geom := by
      have hself : (s₃.heap p).table = (s₂.heap p).table.assign s₂.core.sectorData index := by
        rw [hs3]
        show (Function.update s₂.heap p _ p).table = _
        rw [Function.update_self]
      have hinfo : s₂.view.info p = SwapInfo.strip ⟨(s.view.info p).table, some d⟩ := by
        rw [hv2]
        exact View.setInfo_info_self ..
      rw [hself]
      exact .assign (g := s₂.geom) ((congrArg (fun i => i.table.secSize) hinfo).trans hsize) hi hh2.room
    -- the three flushes
    have hflush : Sends (Sent.Safe R) s₃ s₄ ∧ s₄.Holding R j K ∧ s₄.view.bitmap = b := by
      obtain ⟨ok1, t₁, g1, g2⟩ := run_bind_iff.1 h5
      have hv := (flushSwapInfoData_dev g1).view
      obtain ⟨hf1, hg1⟩ :=
        hh3.dev ((flushSwapInfoData_sends g1 hplace).mono fun c hc => hc.spares hh3.laid (by simp)) hv
      cases ok1 with
      | false =>
        obtain ⟨-, rfl⟩ := run_pure_iff.1 g2
        exact ⟨hf1, hg1, by rw [hv, hb3]⟩
      | true =>
        rw [if_pos rfl] at g2
        obtain ⟨ok2, t₂, g3, g4⟩ := run_bind_iff.1 g2
        obtain ⟨rfl, hf2, hg2, hv2⟩ :=
          flushSwapInfoTable_safe hE hg1 (by rw [hv, hl3]; omega) (by rw [hv]; exact hu3) g3
        rw [if_pos rfl] at g4
        obtain ⟨rfl, hf3, hv4, hp4⟩ := flushSwapHead_safe hE hg2 g4
        have hg4 : s₄.geom = t₂.geom := congrArg View.geom hv4
        refine ⟨(hf1.trans hf2).trans hf3,
          ⟨hg2.lt, hg4 ▸ hg2.laid, hg4 ▸ hg2.sector, hv4 ▸ hg2.named, hv4 ▸ hg2.bits,
          hp4 K (fun _ => id) hg2.bits⟩, by rw [hv4, hv2, hv, hb3]⟩
    obtain ⟨hs4, hh4, hb4⟩ := hflush
    have hall : Sends (Sent.Safe R) s s₄ := (hs1.trans hs2).trans (Quiet.trans_sends (by exact ⟨rfl, rfl⟩) hs4)
    cases ok with
    | true =>
      obtain ⟨-, rfl⟩ := run_pure_iff.1 h6
      exact ⟨hall, hh4⟩
    | false =>
      rw [if_neg (by simp), run_modify_bind] at h6
      obtain ⟨-, rfl⟩ := run_pure_iff.1 h6
      refine ⟨hall, hh4.setBitmap fun i hi => ?_⟩
      rw [show s₄.core.head.bitmap = b from hb4]
      exact hal.bits.clear hfree i (h.bits i hi)

/-- Writing into a mapping that is not in the list, with a move or without. -/
theorem swapWrite_safe {p start count : ℕ} {buf : ℕ → Sector} {r : Ret} (hE : E.TakesRecords R)
    (h : s.Holding R j K) (hu : s.view.UsesOnly K) (hl : s.view.list.length ≤ 256) (hp : p ∉ s.view.list)
    (hplace : (s.heap p).table.InPlace s.geom) (hrun : (swapWrite E p start count buf).run s = some (r, s')) :
    Sends (Sent.Safe R) s s' ∧ s'.Holding R j K := by
  unfold swapWrite at hrun
  obtain ⟨a, t₁, h1, h2⟩ := run_bind_iff.1 hrun
  obtain ⟨hs1, hh1⟩ := swapWrite'_safe h hplace h1
  cases a with
  | true =>
    obtain ⟨-, rfl⟩ := run_pure_iff.1 h2
    exact ⟨hs1, hh1⟩
  | false =>
    rw [if_neg (by simp)] at h2
    obtain ⟨a, t₂, h3, h4⟩ := run_bind_iff.1 h2
    obtain ⟨d, -, hu1⟩ := swapWrite'_spec h1
    have hv1 := hu1.view
    have hinfo := hu1.info p
    unfold View.setData at hinfo
    rw [View.setInfo_info_self] at hinfo
    have hsize : (t₁.heap p).table.secSize = 128 := (congrArg (fun i => i.table.secSize) hinfo).trans hplace.size
    obtain ⟨hs2, hh2⟩ := swapRecreate_safe hE hh1 (by rw [hv1]; exact hu.setInfo hp _) (by rw [hv1]; exact hl)
      (by rw [hv1]; exact hp) hsize h3
    cases a with
    | false =>
      obtain ⟨-, rfl⟩ := run_pure_iff.1 h4
      exact ⟨hs1.trans hs2, hh2⟩
    | true =>
      rw [if_pos rfl] at h4
      obtain ⟨a, t₃, h5, h6⟩ := run_bind_iff.1 h4
      obtain rfl : s' = t₃ := by cases a <;> exact (run_pure_iff.1 h6).2
      obtain ⟨-, hplace'⟩ := swapRecreate_inPlace h3 hsize hh1.room
      obtain ⟨hs3, hh3⟩ := swapWrite'_safe hh2 hplace' h5
      exact ⟨(hs1.trans hs2).trans hs3, hh3⟩

/-! ## Rounds -/

section

variable {v w : View} {g : Seg} {p : ℕ}

theorem View.UsesOnly.mono (h : v.UsesOnly K) (hK : ∀ i, K i → K' i) : v.UsesOnly K' := fun q hq => hK _ (h q hq)

theorem View.UsesOnly.keep (h : v.UsesOnly K) (hk : v.Keep w) (hold : ∀ q ∈ v.list, q < v.brk) :
    w.UsesOnly K := by
  intro q hq
  rw [hk.list] at hq
  rw [hk.info q (hold q hq)]
  exact h q hq

theorem View.UsesOnly.setData (h : v.UsesOnly K) (d : Block) : (v.setData p d).UsesOnly K := by
  intro q hq
  unfold View.setData
  by_cases hqp : q = p
  · subst hqp
    rw [View.setInfo_info_self]
    exact h q hq
  · rw [View.setInfo_info_of_ne _ _ hqp]
    exact h q hq

/-- **A new mapping is entered** in the list and in the table. -/
theorem enterCreated_safe {a : Bool} (hE : E.TakesRecords R) (h : s.Holding R j (s.plus K p))
    (hu : s.view.UsesOnly K) (hl : s.view.list.length ≤ 256) (hrun : (enterCreated E p).run s = some (a, s')) :
    Sends (Sent.Safe R) s s' ∧ s'.Holding R j (s.plus K p) ∧ s'.view.UsesOnly (s.plus K p) := by
  unfold enterCreated at hrun
  rw [run_modify_bind] at hrun
  obtain ⟨ok, s₁, h1, h2⟩ := run_bind_iff.1 hrun
  set s₀ : World := { s with core := { s.core with infoList := s.core.infoList ++ [p] } } with hs0
  have hh0 : s₀.Holding R j (s.plus K p) := ⟨h.lt, h.laid, h.sector, h.named, h.bits, h.disk⟩
  have hu0 : s₀.view.UsesOnly (s.plus K p) := by
    intro q hq
    rcases List.mem_append.1 (show q ∈ s.core.infoList ++ [p] from hq) with hq | hq
    · exact Or.inl (hu q hq)
    · exact Or.inr (List.mem_singleton.1 hq ▸ rfl)
  have hl0 : s₀.view.list.length < 900 := by
    show (s.core.infoList ++ [p]).length < 900
    have hl' : s.core.infoList.length ≤ 256 := hl
    rw [List.length_append, List.length_singleton]
    omega
  obtain ⟨rfl, hs1, hh1, hv1⟩ := flushSwapInfoTable_safe hE hh0 hl0 hu0 h1
  rw [if_pos rfl, run_modify_bind] at h2
  obtain ⟨-, rfl⟩ := run_pure_iff.1 h2
  refine ⟨Quiet.trans_sends (by exact ⟨rfl, rfl⟩) hs1,
    ⟨hh1.lt, hh1.laid, hh1.sector, hh1.named, hh1.bits, hh1.disk⟩, ?_⟩
  have hu1 : s₁.view.UsesOnly (s.plus K p) := hv1 ▸ hu0
  exact hu1

theorem WriteStep.keep_of_err {src : ℕ → Sector} {r : Ret} (h : WriteStep E s g src r s') (hr : r = .err)
    (hn : s.view.find g.bStart = none) : s.view.Keep s'.view := by
  cases h with
  | hit hp hw hu => rw [hn] at hp; exact absurd hp (by simp)
  | direct hn hu hd => rw [hu.view]; exact .refl _
  | failed hn hk hu => rw [hu.view]; exact hk
  | created hn hroom hb hi hfree hbit hseg hcopy hu => split at hr <;> exact absurd hr (by simp)

theorem ReadStep.keep_of_err {buf : ℕ → Sector} {r : Ret × (ℕ → Sector)}
    (h : ReadStep E s g buf r s') (hr : r.1 = .err)
    (hn : s.view.find g.bStart = none) : s.view.Keep s'.view := by
  cases h with
  | hit hp hd hbuf => rw [hn] at hp; exact absurd hp (by simp)
  | direct hn hu hbuf => rw [hu.view]; exact .refl _
  | failed hn hk hu => rw [hu.view]; exact hk
  | created hn hroom hb hi hfree hbit hseg hout hbuf hu => exact absurd hr (by simp)

/-- What a driver keeps from round to round: it holds a head, and the disk knows every block of the list. -/
structure World.InStep (R : ℕ) (s : World) : Prop where
  place : s.view.InPlace
  hold : ∃ j K, s.Holding R j K ∧ s.view.UsesOnly K

/-- If the segment's block is mapped, the device takes the block `swap_write` first tries to write, or
no mapping can be moved. -/
def Stays (E : Env) (s : World) (g : Seg) (src : ℕ → Sector) : Prop :=
  ∀ p d, s.swapFindSwapInfo g.bStart = some p → (s.heap p).data = some d → s.core.infoNum < maxSwapBlockForUse →
    (E.write s.tick ⟨(s.heap p).table.swapSec.toNat % 2 ^ 32, (s.heap p).table.secSize.toNat % 2 ^ 16, 5⟩
      (blockBuf (copyIn d (g.sStart - swapSectorAlign g.sStart) g.sCount src))).isOk = true

/-- Then the mapping is where it was. -/
theorem swapWrite_stays {src : ℕ → Sector} {r : Ret} (hp : s.swapFindSwapInfo g.bStart = some p)
    (hst : Stays E s g src) (hrun : (swapWrite E p g.sStart g.sCount src).run s = some (r, s')) :
    ∃ a, (swapWrite' E p g.sStart g.sCount src).run s = some (a, s') := by
  unfold swapWrite at hrun
  obtain ⟨a, t₁, h1, h2⟩ := run_bind_iff.1 hrun
  cases a with
  | true =>
    obtain ⟨-, rfl⟩ := run_pure_iff.1 h2
    exact ⟨_, h1⟩
  | false =>
    rw [if_neg (by simp)] at h2
    obtain ⟨a, t₂, h3, h4⟩ := run_bind_iff.1 h2
    obtain ⟨d, hd, hu⟩ := swapWrite'_spec h1
    have hroom : maxSwapBlockForUse ≤ s.core.infoNum := by
      by_contra hlt
      have hok := hst p d hp hd (by omega)
      unfold swapWrite' at h1
      rw [run_get_bind, show (s.heap p).data = some d from hd] at h1
      dsimp only at h1
      rw [run_set_bind] at h1
      unfold flushSwapInfoData at h1
      rw [run_get_bind] at h1
      simp only [World.setInfo, Function.update_self] at h1
      have h1' : (hdWriteSector E .block 5 (s.heap p).table.swapSec.toNat
          (s.heap p).table.secSize.toNat _).run _ =
        some (false, t₁) := h1
      rw [hdWriteSector_run, dataOffset_eq] at h1'
      have hno := (Prod.mk.inj (Option.some.inj h1')).1
      exact absurd (hno.symm.trans hok) (by simp)
    have hnum : t₁.core.infoNum = s.core.infoNum := congrArg View.num hu.view
    unfold swapRecreate at h3
    rw [run_get_bind, if_pos (by rw [hnum]; exact hroom)] at h3
    obtain ⟨rfl, rfl⟩ := run_pure_iff.1 h3
    obtain ⟨-, rfl⟩ := run_pure_iff.1 h4
    exact ⟨_, h1⟩

/-- A write below the reserve. -/
theorem directWrite_safe {c : Prop} [Decidable c] {done : Bool} {src : ℕ → Sector} (h : s.Holding R j K)
    (hg : g.sStart + g.sCount ≤ R)
    (hrun : ((if c then hdWriteSectorRetry E .user g.sStart g.sCount src else return false) : SwapM Bool).run s =
      some (done, s')) : Sends (Sent.Safe R) s s' ∧ s'.Holding R j K := by
  have hv := (directWrite_spec hrun).1.view
  split at hrun
  · have hR := h.size
    refine h.dev ((hdWriteSector_sends hrun).mono ?_) hv
    rintro c ⟨-, hl, hc⟩ x hx ⟨h1, h2⟩
    have hlow : R ≤ x := by
      rcases hx with hx | hx | hx
      · exact (Nat.le_add_right ..).trans hx.1
      · exact (Nat.le_add_right ..).trans hx.1
      · exact (Nat.le_add_right ..).trans hx.1
    simp only [maxReservedSector] at hR
    have hmod : g.sCount % 2 ^ 16 ≤ g.sCount := Nat.mod_le ..
    omega
  · obtain ⟨-, rfl⟩ := run_pure_iff.1 hrun
    exact ⟨.refl _, h⟩

/-- A mapping just made is in place, and not in the list. -/
theorem repairAndCreate_new {start count : ℕ} (h : s.Holding R j K) (hv : s.view.InPlace)
    (hrun : (repairAndCreate E start count).run s = some (some p, s')) :
    s.view.Keep s'.view ∧ p ∉ s'.view.list ∧ (s'.heap p).table.InPlace s'.geom := by
  obtain ⟨hres, hbrk⟩ := repairAndCreate_spec hrun
  obtain ⟨-, b, index, d, hm, -⟩ := hres.resolve_left (by simp)
  obtain rfl := hbrk p rfl
  have hk := hm.entry.1
  refine ⟨hk, fun hp => ?_, (repairAndCreate_inPlace hrun h.room).2.2⟩
  rw [hk.list] at hp
  exact absurd (hv.old _ hp) (Nat.lt_irrefl _)

/-- **A round of a write** keeps the driver in step with its disk, wherever the power goes. -/
theorem coreWriteBlock_safe {bad : ℤ} {buf : ℕ → Sector} {r : Ret} (hE : E.TakesRecords R) (hs : s.InStep R)
    (hg : g.sStart + g.sCount ≤ R) (hst : Stays E s g fun k => buf (g.off + k))
    (hrun : (coreWriteBlock E bad g buf).run s = some (r, s')) : Sends (Sent.Safe R) s s' ∧ s'.InStep R := by
  obtain ⟨hv, j, K, h, hu⟩ := hs
  have hstep := coreWriteBlock_step hrun
  have hv' := hstep.inPlace hv
  suffices Sends (Sent.Safe R) s s' ∧ ∃ K', s'.Holding R j K' ∧ s'.view.UsesOnly K' by
    obtain ⟨h1, K', h2, h3⟩ := this
    exact ⟨h1, hv', j, K', h2, h3⟩
  unfold coreWriteBlock at hrun
  rw [run_get_bind] at hrun
  dsimp only at hrun
  split at hrun
  · -- mapped
    rename_i p hp
    obtain ⟨r', s₁, h1, h2⟩ := run_bind_iff.1 hrun
    obtain rfl : s' = s₁ := by
      cases r' with
      | ok => exact (run_pure_iff.1 h2).2
      | err => exact (run_pure_iff.1 h2).2
      | dirty =>
        dsimp only at h2
        split at h2 <;> exact (run_pure_iff.1 h2).2
    obtain ⟨a, h3⟩ := swapWrite_stays hp hst h1
    have hin := inPlace_view.1 (hv.info p (View.find_some (find_view _ ▸ hp)).1)
    obtain ⟨hsend, hh⟩ := swapWrite'_safe h hin h3
    obtain ⟨d, -, hupd⟩ := swapWrite'_spec h3
    refine ⟨hsend, K, hh, ?_⟩
    rw [hupd.view]
    exact hu.setData _
  rename_i hn
  rw [find_view] at hn
  obtain ⟨done, s₁, h1, h2⟩ := run_bind_iff.1 hrun
  have hv1 : s₁.view = s.view := (directWrite_spec h1).1.view
  obtain ⟨hs1, hh1⟩ := directWrite_safe h hg h1
  rw [run_get_bind] at h2
  have hu1 : s₁.view.UsesOnly K := by rw [hv1]; exact hu
  cases done with
  | true =>
    obtain ⟨-, rfl⟩ := run_pure_iff.1 h2
    exact ⟨hs1, K, hh1, hu1⟩
  | false =>
    rw [if_neg (by simp)] at h2
    split at h2
    · obtain ⟨-, rfl⟩ := run_pure_iff.1 h2
      exact ⟨hs1, K, hh1, hu1⟩
    obtain ⟨o, s₂, h3, h4⟩ := run_bind_iff.1 h2
    obtain ⟨hs2, hh2, hnew⟩ := repairAndCreate_safe hE hh1 h3
    cases o with
    | none =>
      obtain ⟨hr, rfl⟩ := run_pure_iff.1 h4
      exact ⟨hs1.trans hs2, K, hh2, hu.keep (hstep.keep_of_err hr hn) hv.old⟩
    | some p =>
      obtain ⟨hk, hp, hplace⟩ := repairAndCreate_new hh1 (by rw [hv1]; exact hv) h3
      have hu2 : s₂.view.UsesOnly K := hu1.keep hk (by rw [hv1]; exact hv.old)
      have hl2 : s₂.view.list.length ≤ 256 := by
        rw [hk.list, hv1]
        exact hv.room
      dsimp only at h4
      obtain ⟨r', s₃, h5, h6⟩ := run_bind_iff.1 h4
      -- the mapping could not be written and is dropped
      have drop : ∀ {u s₄}, (dropCreated p).run s₃ = some (u, s₄) →
          (pure .err : SwapM Ret).run s₄ = some (r, s') →
          Sends (Sent.Safe R) s s' ∧ ∃ K', s'.Holding R j K' ∧ s'.view.UsesOnly K' := by
        intro u s₄ h7 h8
        obtain ⟨hr, rfl⟩ := run_pure_iff.1 h8
        have hkeep := hstep.keep_of_err hr hn
        obtain ⟨hs3, hh3⟩ := swapWrite_safe hE hh2 hu2 hl2 hp hplace h5
        obtain rfl := dropCreated_run h7
        refine ⟨(hs1.trans hs2).trans (hs3.trans (Quiet.sends ⟨rfl, rfl⟩)), K, hh3.setBitmap fun i hi => ?_,
          hu.keep hkeep hv.old⟩
        exact hkeep.bits i (h.bits i hi)
      cases r' with
      | ok =>
        obtain ⟨ok, s₄, h7, h8⟩ := run_bind_iff.1 h6
        obtain ⟨hs3, hh3⟩ := swapWrite_safe hE (hnew p rfl) (hu2.mono fun _ => Or.inl) hl2 hp hplace h5
        obtain ⟨w, hw, hupd⟩ := swapWrite_spec h5
        obtain ⟨d, hv3⟩ : ∃ d, s₃.view = s₂.view.setData p d := by
          cases hw with
          | done hd => exact ⟨_, hupd.view⟩
        have hsame : s₃.plus K p = s₂.plus K p := by
          unfold World.plus
          rw [show (s₃.heap p).table.index = (s₂.heap p).table.index from
            congrArg (fun i => i.table.index)
              ((congrFun (congrArg View.info hv3) p).trans (View.setInfo_info_self ..))]
        rw [← hsame] at hh3
        obtain ⟨hs4, hh4, hu4⟩ := enterCreated_safe hE hh3 (by rw [hv3]; exact hu2.setData _)
          (by rw [hv3]; exact hl2) h7
        obtain rfl : s' = s₄ := by
          split at h8
          · split at h8 <;> exact (run_pure_iff.1 h8).2
          · exact (run_pure_iff.1 h8).2
        exact ⟨((hs1.trans hs2).trans hs3).trans hs4, _, hh4, hu4⟩
      | err =>
        obtain ⟨u, s₄, h7, h8⟩ := run_bind_iff.1 h6
        exact drop h7 h8
      | dirty =>
        obtain ⟨u, s₄, h7, h8⟩ := run_bind_iff.1 h6
        exact drop h7 h8

/-- **A round of a read** does so too. -/
theorem coreReadBlock_safe {bad : ℤ} {buf : ℕ → Sector} {r : Ret × (ℕ → Sector)}
    (hE : E.TakesRecords R) (hs : s.InStep R)
    (hrun : (coreReadBlock E bad g buf).run s = some (r, s')) : Sends (Sent.Safe R) s s' ∧ s'.InStep R := by
  obtain ⟨hv, j, K, h, hu⟩ := hs
  have hstep := coreReadBlock_step hrun
  have hv' := hstep.inPlace hv
  suffices Sends (Sent.Safe R) s s' ∧ ∃ K', s'.Holding R j K' ∧ s'.view.UsesOnly K' by
    obtain ⟨h1, K', h2, h3⟩ := this
    exact ⟨h1, hv', j, K', h2, h3⟩
  unfold coreReadBlock at hrun
  rw [run_get_bind] at hrun
  split at hrun
  · -- a mapped block is read from memory
    rename_i p hp
    obtain ⟨buf', s₁, h1, h2⟩ := run_bind_iff.1 hrun
    obtain ⟨-, rfl⟩ := run_pure_iff.1 h2
    unfold swapRead' at h1
    rw [run_get_bind] at h1
    split at h1
    · exact (run_oops h1).elim
    · obtain ⟨-, rfl⟩ := run_pure_iff.1 h1
      exact ⟨.refl _, K, h, hu⟩
  rename_i hn
  rw [find_view] at hn
  -- a read in place sends no write
  obtain ⟨⟨done, buf₁⟩, s₁, h1, h2⟩ := run_bind_iff.1 hrun
  have hv1 : s₁.view = s.view := (directRead_spec h1).1.view
  obtain ⟨hs1, hh1⟩ : Sends (Sent.Safe R) s s₁ ∧ s₁.Holding R j K := by
    refine h.dev ?_ hv1
    split at h1
    · obtain ⟨a, s₂, h3, h4⟩ := run_bind_iff.1 h1
      obtain ⟨-, rfl⟩ := run_pure_iff.1 h4
      exact (hdReadSector_quiet _ _ _ _ _ _ h3).sends
    · obtain ⟨-, rfl⟩ := run_pure_iff.1 h1
      exact .refl _
  have hu1 : s₁.view.UsesOnly K := by rw [hv1]; exact hu
  rw [run_get_bind] at h2
  cases done with
  | true =>
    obtain ⟨-, rfl⟩ := run_pure_iff.1 h2
    exact ⟨hs1, K, hh1, hu1⟩
  | false =>
    dsimp only at h2
    rw [if_neg (by simp)] at h2
    split at h2
    · obtain ⟨-, rfl⟩ := run_pure_iff.1 h2
      exact ⟨hs1, K, hh1, hu1⟩
    -- it failed, so a mapping is made
    obtain ⟨o, s₂, h3, h4⟩ := run_bind_iff.1 h2
    obtain ⟨hs2, hh2, hnew⟩ := repairAndCreate_safe hE hh1 h3
    cases o with
    | none =>
      obtain ⟨rfl, rfl⟩ := run_pure_iff.1 h4
      exact ⟨hs1.trans hs2, K, hh2, hu.keep (hstep.keep_of_err rfl hn) hv.old⟩
    | some p =>
      obtain ⟨hk, hp, hplace⟩ := repairAndCreate_new hh1 (by rw [hv1]; exact hv) h3
      have hu2 : s₂.view.UsesOnly K := hu1.keep hk (by rw [hv1]; exact hv.old)
      have hl2 : s₂.view.list.length ≤ 256 := by
        rw [hk.list, hv1]
        exact hv.room
      dsimp only at h4
      rw [run_get_bind] at h4
      split at h4
      · exact (run_oops h4).elim
      obtain ⟨ok, s₃, h5, h6⟩ := run_bind_iff.1 h4
      have hv3 := (flushSwapInfoData_dev h5).view
      have hspare := (flushSwapInfoData_sends h5 hplace).mono fun c hc => hc.spares hh2.laid (by simp)
      obtain ⟨hs3, hh3⟩ := hh2.dev hspare hv3
      -- the block is written before any record names it
      cases ok with
      | true =>
        rw [if_pos rfl] at h6
        obtain ⟨ok, s₄, h7, h8⟩ := run_bind_iff.1 h6
        have hh3' := ((hnew p rfl).dev hspare hv3).2
        rw [← World.plus_congr hv3] at hh3'
        obtain ⟨hs4, hh4, hu4⟩ := enterCreated_safe hE hh3' (by rw [hv3]; exact hu2) (by rw [hv3]; exact hl2) h7
        obtain rfl : s' = s₄ := by split at h8 <;> exact (run_pure_iff.1 h8).2
        exact ⟨((hs1.trans hs2).trans hs3).trans hs4, _, hh4, hu4⟩
      | false =>
        obtain ⟨u, s₄, h7, h8⟩ := run_bind_iff.1 h6
        obtain ⟨rfl, rfl⟩ := run_pure_iff.1 h8
        have hkeep := hstep.keep_of_err rfl hn
        obtain rfl := dropCreated_run h7
        refine ⟨(hs1.trans hs2).trans (hs3.trans (Quiet.sends ⟨rfl, rfl⟩)), K, hh3.setBitmap fun i hi => ?_,
          hu.keep hkeep hv.old⟩
        exact hkeep.bits i (h.bits i hi)

end

end ScsiSwap
