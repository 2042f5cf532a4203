import ScsiSwap.Proof.Stored

/-!
# A restart forgets nothing

On a device whose reserve has no fault, memory and disk agree (`View.Stored`): a start establishes it
(`scsiSwapInit_stored`), requests keep it (`serve_stored`), and a restart finds on the disk what it
had in memory, at new addresses (`coreRestart_stored`).

* `restart_restores`: in every state reached by requests and restarts, a restart gives back the
  mapping list, its length, the bitmap and the contents of every user sector.
-/

namespace ScsiSwap

open StateOption SkipStore

variable {E : Env} {R : ℕ} {s s' : World} {v w : View} {disk : ℕ → Sector}

/-! ## The head -/

theorem swapGetHeadState_sound (hE : E.SoundReserve R) (hR : R + maxReservedSector ≤ 2 ^ 32) {k : ℕ}
    (hk : k < maxReservedSector) (old : SwapHead) (s : World) :
    ∃ s', (swapGetHeadState E (R + k) old).run s =
        some (((swapHeadEquiv.symm (s.disk ((R + k) % 2 ^ 32))).state,
          swapHeadEquiv.symm (s.disk ((R + k) % 2 ^ 32))), s') ∧
      Calm s s' ∧ s'.disk = s.disk := by
  obtain ⟨buf, s₁, h1, hc, hd, hbuf⟩ := readFaults_run (s := s) (hE.readFaults hR) hk
  refine ⟨s₁, ?_, hc, hd⟩
  unfold swapGetHeadState
  rw [run_bind_of h1]
  dsimp only
  rw [hbuf rfl]
  rfl

/-- What is left of the state when only the head was read. -/
structure HeadRead (x : SwapHead) (s s' : World) : Prop where
  core : s'.core = { s.core with head := x, sectorHead := s'.core.sectorHead, deviceDead := s'.core.deviceDead }
  log : s'.log = s.log
  heap : s'.heap = s.heap
  brk : s'.brk = s.brk
  disk : s'.disk = s.disk

/-- **A head that is on the disk twice is found**, and nothing is written. -/
theorem initSwapHead_found {x : SwapHead} (hE : E.SoundReserve R) (hR : R + maxReservedSector ≤ 2 ^ 32)
    (hx : x.state = .ok) (hh : ∀ k, k = 0 ∨ k = 64 → area s.disk R swapHeadOffest k = swapHeadEquiv x) :
    ∃ s', (initSwapHead E (R + swapHeadOffest)).run s = some (true, s') ∧ HeadRead x s s' ∧
      s'.core.sectorHead = R + swapHeadOffest := by
  have e0 : swapHeadEquiv.symm (s.disk ((R + swapHeadOffest) % 2 ^ 32)) = x := by
    rw [Equiv.symm_apply_eq]
    exact hh 0 (Or.inl rfl)
  have e1 : swapHeadEquiv.symm (s.disk ((R + (swapHeadOffest + 64)) % 2 ^ 32)) = x := by
    rw [Equiv.symm_apply_eq]
    exact hh 64 (Or.inr rfl)
  obtain ⟨s₁, h1, hc1, hd1⟩ := swapGetHeadState_sound hE hR (k := swapHeadOffest) (by decide) s.core.head s
  obtain ⟨s₂, h2, hc2, hd2⟩ := swapGetHeadState_sound hE hR (k := swapHeadOffest + 64)
    (by decide) SwapHead.zero (s₁.setHead x)
  rw [e0, hx] at h1
  rw [show (s₁.setHead x).disk = s.disk from hd1, e1, hx, ← Nat.add_assoc] at h2
  refine ⟨{ s₂ with core.sectorHead := R + swapHeadOffest }, ?_, ⟨?_, ?_, ?_, ?_, hd2.trans hd1⟩, rfl⟩
  · unfold initSwapHead initHeadLoop
    rw [run_get_bind, run_bind_of h1]
    dsimp only
    rw [run_modify_bind, if_neg (by simp), run_bind_of h2]
    rfl
  · have hcore : (s₁.setHead x).core = { s.core with head := x, deviceDead := s₁.core.deviceDead } := by
      unfold World.setHead
      rw [hc1.core]
    rw [hc2.core, hcore]
  · exact hc2.log.trans hc1.log
  · exact hc2.heap.trans hc1.heap
  · exact hc2.brk.trans hc1.brk

/-! ## The table -/

/-- The table areas hold the entries `ts`, and nothing else that looks like one. -/
def TablesHold (R : ℕ) (disk : ℕ → Sector) (ts : List SwapTable) : Prop :=
  ∀ a, a = swapTableOffset ∨ a = swapTableBackupOffset → ∀ k < 32,
    content (area disk R a k) = (pack 8 ts []).getD k [] ∧ SlotsIn (area disk R a k) ts

/-- What a scan finds there. -/
theorem TablesHold.scan {ts : List SwapTable} (h : TablesHold R disk ts)
    (hlen : ts.length ≤ maxSwapBlockForUse) {a : ℕ} (ha : a = swapTableOffset ∨ a = swapTableBackupOffset) :
    (SkipStore.scan 8 (seen (fun _ => false) disk R a) 32 0).map SwapTable.strip = ts := by
  have hpack := length_pack (w := 8) ts [] (by decide)
  simp only [List.length_nil, maxSwapBlockForUse] at hpack hlen
  rw [← scan_map]
  have hat : ∀ k < 32, (seen (fun _ => false) disk R a k).map (List.map SwapTable.strip) =
      some ((pack 8 ts []).getD k []) := by
    intro k hk
    rw [seen_readable]
    exact congrArg some (h a ha k hk).1
  refine scan_pack ts [] (by decide) ?_ ?_ (by omega)
  · intro i b hi
    have hlt : i < (pack 8 ts []).length := (List.getElem?_eq_some_iff.1 hi).1
    rw [Nat.zero_add, hat i (by omega)]
    rw [List.getD_eq_getElem?_getD, hi]
    rfl
  · rw [Nat.zero_add, hat _ (by omega), List.getD_eq_default _ _ le_rfl]

/-- **The loader brings back what the table areas hold**, with the data of every entry. -/
theorem initSwapInfo_holds {ts : List SwapTable} (hE : E.SoundReserve R) (hR : R + maxReservedSector ≤ 2 ^ 32)
    (ht : s.core.sectorTable = R + swapTableOffset) (hr : s.core.sectorReserveStart = R)
    (hts : TablesHold R s.disk ts)
    (hlen : ts.length ≤ maxSwapBlockForUse) (hload : ∀ t, t.strip ∈ ts → Loadable E s.geom t) :
    ∃ s' m, (initSwapInfo E).run s = some (true, s') ∧ m.map SwapTable.strip = ts ∧ s'.disk = s.disk ∧
      Loads (fun t d => d = blockAt s.disk t) m
        { s with core := { s.core with infoList := [], infoNum := 0 } } s' := by
  have hpacked : ∀ a, a = swapTableOffset ∨ a = swapTableBackupOffset →
      ∀ i < 32, Packed E s.geom (area s.disk R a i) :=
    fun a ha i hi j hj => hload _ ((hts a ha i hi).2 j hj)
  have hm := hts.scan hlen (Or.inl rfl)
  have hb := hts.scan hlen (Or.inr rfl)
  obtain ⟨s', hrun, hl, hd⟩ := initSwapInfo_scan (hE.readFaults hR) hE.memory ht hr
    (fun i hi _ => hpacked _ (Or.inl rfl) i hi) (fun i hi _ => hpacked _ (Or.inr rfl) i hi) rfl rfl
  have hlens : (SkipStore.scan 8 (seen (fun _ => false) s.disk R swapTableOffset) 32 0).length =
      (SkipStore.scan 8 (seen (fun _ => false) s.disk R swapTableBackupOffset) 32 0).length := by
    have := congrArg List.length (hm.trans hb.symm)
    simpa using this
  rw [if_neg (by omega)] at hl
  exact ⟨s', _, hrun, hm, hd hlens, hl.mono fun t d h => h hlens⟩

/-! ## The same list at other addresses -/

theorem SwapTable.exists_of_strip {t u : SwapTable} (h : t.strip = u.strip) :
    ∃ x, t = { u with saveSec := x } := by
  refine ⟨t.saveSec, ?_⟩
  cases t
  cases u
  simp only [SwapTable.strip, SwapTable.mk.injEq, and_true] at h ⊢
  exact h

/-- An entry that differs in the record of where it was saved is as good. -/
theorem SwapInfo.Ok.of_strip {g : Geom} {i j : SwapInfo} (h : i.Ok g) (he : j.table.strip = i.table.strip)
    (hd : j.data.isSome) : j.Ok g := by
  obtain ⟨x, hx⟩ := SwapTable.exists_of_strip he
  obtain ⟨t, d⟩ := j
  subst hx
  exact ⟨h.size, h.index, h.swap, h.aligned, h.src, h.crc.trans (crc_congr rfl), hd⟩

theorem View.tables_mem {p : ℕ} (hp : p ∈ w.list) (h : w.tables = v.tables) :
    ∃ q ∈ v.list, (v.info q).table.strip = (w.info p).table.strip := by
  have hmem : (w.info p).table.strip ∈ v.tables := h ▸ List.mem_map_of_mem hp
  obtain ⟨q, hq, he⟩ := List.mem_map.1 hmem
  exact ⟨q, hq, he⟩

/-- A view with the same entries, and the data that is on the disk, is stored too. -/
theorem View.Stored.reload (h : v.Stored R disk) (hg : w.geom = v.geom) (hh : w.head = v.head)
    (ht : w.tables = v.tables) (hnum : w.num = v.num) (hold : ∀ p ∈ w.list, p < w.brk) (hnodup : w.list.Nodup)
    (hdata : ∀ p ∈ w.list, (w.info p).data = some (blockAt disk (w.info p).table)) : w.Stored R disk := by
  have hlen : w.list.length = v.list.length := by
    have := congrArg List.length ht
    simpa [View.tables] using this
  -- what distinguishes the entries of `v` distinguishes those of `w`
  have hinj : ∀ {β : Type} (f : SwapTable → β), (∀ t, f t.strip = f t) →
      (∀ p ∈ v.list, ∀ q ∈ v.list, f (v.info p).table = f (v.info q).table → p = q) →
      ∀ p ∈ w.list, ∀ q ∈ w.list, f (w.info p).table = f (w.info q).table → p = q := by
    intro β f hf hv
    refine List.inj_on_of_nodup_map ?_
    have hmap : ∀ u : View, (u.list.map fun p => f (u.info p).table) = u.tables.map f := by
      intro u
      unfold View.tables
      rw [List.map_map]
      exact List.map_congr_left fun p _ => (hf _).symm
    rw [hmap, ht, ← hmap]
    exact List.Nodup.map_on hv h.inv.nodup
  refine ⟨⟨hg ▸ h.inv.geom, ?_, ?_, hold, ?_, ?_, hnodup⟩,
    ⟨hold, hnodup, ?_, ?_⟩, by rw [hg, h.reserve], by rw [hg, h.sector],
    hh ▸ h.named, fun k hk => by rw [hh]; exact h.heads k hk, fun a ha k hk => by
      rw [ht]; exact h.tables a ha k hk, hdata⟩
  · rw [hnum, hlen, h.inv.num]
  · rw [hlen]; exact h.inv.room
  · intro p hp
    obtain ⟨q, hq, he⟩ := tables_mem hp ht
    rw [hg]
    exact (h.inv.info q hq).of_strip he.symm (by rw [hdata p hp]; rfl)
  · exact hinj (·.srcSec) (fun _ => rfl) h.inv.src
  · intro p hp
    obtain ⟨q, hq, he⟩ := tables_mem hp ht
    have hi : w.index p = v.index q := congrArg (fun t => t.index.toNat) he.symm
    rw [hi, show w.bitmap = v.bitmap from congrArg SwapHead.bitmap hh]
    exact h.own.bit q hq
  · exact hinj (fun t => t.index.toNat) (fun _ => rfl) h.own.inj

/-! ## A start on a disk that holds what memory had -/

/-- Every entry on the disk can be loaded. -/
theorem View.Stored.loadable (h : v.Stored R disk) (hE : E.SoundReserve R) {t : SwapTable}
    (ht : t.strip ∈ v.tables) : Loadable E v.geom t := by
  obtain ⟨p, hp, he⟩ := List.mem_map.1 ht
  have hok := h.inv.info p hp
  obtain ⟨hb, hi⟩ := h.inv.block hp
  obtain ⟨x, rfl⟩ := SwapTable.exists_of_strip he.symm
  have hcrc : ({ (v.info p).table with saveSec := x } : SwapTable).crc = (v.info p).table.crc := crc_congr rfl
  refine ⟨hcrc.trans hok.crc.symm, ?_, hok.src.le, fun tick => ?_⟩
  · exact (Nat.le_add_right _ _).trans hok.swap.ge
  · dsimp only
    rw [hb, h.reserve]
    refine hE.read _ _ ?_ ?_ <;> simp only [swapDataOffset, maxReservedSector, sector8M] <;> omega

/-- The blocks of the list, from the entries and the disk. -/
theorem mappedBlocks_eq (hd : ∀ p ∈ s.view.list, (s.view.info p).data =
    some (blockAt disk (s.view.info p).table)) :
    s.mappedBlocks = s.view.tables.map fun t => ⟨t.srcSec, t.swapSec, t.index, some (blockAt disk t)⟩ := by
  unfold World.mappedBlocks View.tables
  rw [List.map_map]
  refine List.map_congr_left fun p hp => ?_
  have hdata : (s.heap p).data = some (blockAt disk (s.heap p).table) := hd p hp
  dsimp only
  rw [hdata]
  rfl

/-- The contents of the disk follow from the list and the disk. -/
theorem contents_congr (hm : s'.mappedBlocks = s.mappedBlocks) (hd : s'.disk = s.disk) (x : ℕ) :
    s'.contents x = s.contents x := by
  have hfind : ∀ u : World, u.contents x = (u.mappedBlocks.find? fun m => m.srcSec.toNat = swapSectorAlign x).elim
      (u.disk x) fun m => m.data.elim zeroSector fun d => blockBuf d (x - swapSectorAlign x) := by
    intro u
    unfold World.contents World.swapFindSwapInfo World.mappedBlocks
    rw [List.find?_map]
    cases h : u.core.infoList.find? fun p => (u.heap p).table.srcSec.toNat = swapSectorAlign x with
    | none =>
      have h' : u.core.infoList.find?
          ((fun m : MappedBlock => decide (m.srcSec.toNat = swapSectorAlign x)) ∘ fun p =>
        ⟨(u.heap p).table.srcSec, (u.heap p).table.swapSec, (u.heap p).table.index, (u.heap p).data⟩) = none := h
      rw [h']
      rfl
    | some p =>
      have h' : u.core.infoList.find?
          ((fun m : MappedBlock => decide (m.srcSec.toNat = swapSectorAlign x)) ∘ fun p =>
        ⟨(u.heap p).table.srcSec, (u.heap p).table.swapSec, (u.heap p).table.index, (u.heap p).data⟩) =
          some p := h
      rw [h']
      dsimp only [Option.map_some, Option.elim_some]
      cases (u.heap p).data with
      | none => rfl
      | some d => rfl
  rw [hfind, hfind, hm, hd]

/-- What a restart gives back. -/
structure Restored (R : ℕ) (s s' : World) : Prop where
  stored : s'.view.Stored R s'.disk
  blocks : s'.mappedBlocks = s.mappedBlocks
  num : s'.core.infoNum = s.core.infoNum
  bitmap : s'.core.head.bitmap = s.core.head.bitmap
  contents : ∀ x, s'.contents x = s.contents x

/-- **A restart** returns 0, and gives back what there was. -/
theorem coreRestart_stored (hE : E.SoundReserve R) (hs : s.view.Stored R s.disk) :
    ∃ s', (CoreCall.restart.serve E R).run s = some (.inr true, s') ∧ Restored R s s' := by
  have hg := hs.inv.geom
  have hR := hs.size
  -- the state `scsi_swap_core_destroy` leaves, with the sectors set again
  obtain ⟨n, hdestroy⟩ : ∃ n, scsiSwapCoreDestroy.run s =
      some ((), { s with core := { s.core with infoList := [], deviceDead := n } }) := ⟨_, rfl⟩
  set s₀ : World := { s with core := { s.core with
    infoList := [], deviceDead := n, sectorReserveStart := R, sectorHead := R + swapHeadOffest
    sectorData := R + swapDataOffset, sectorTable := R + swapTableOffset } } with hs₀
  obtain ⟨s₁, h1, hread, hsec⟩ := initSwapHead_found (s := s₀) hE hR hs.named.seal_ok hs.heads
  have hgeom : s₁.geom = s.view.geom := by
    have e1 : s.core.sectorReserveStart = R := hs.reserve
    have e2 : s.core.sectorHead = R + swapHeadOffest := hs.sector
    have e3 : s.core.sectorTable = R + swapTableOffset := hs.reserve ▸ hg.table
    have e4 : s.core.sectorData = R + swapDataOffset := hs.reserve ▸ hg.data
    show s₁.geom = s.geom
    unfold World.geom
    rw [hsec, hread.core, hread.log, e1, e2, e3, e4]
  have hhead : s₁.core.head = s.view.head.seal := by rw [hread.core]
  have hlen : s.view.tables.length ≤ maxSwapBlockForUse := by
    rw [View.tables, List.length_map]
    exact hs.inv.room
  have htables₁ : TablesHold R s₁.disk s.view.tables := by
    rw [hread.disk]
    exact hs.tables
  obtain ⟨s₂, m, h2, hm, hd2, hl⟩ := initSwapInfo_holds hE hR (s := s₁) (by rw [hread.core]) (by rw [hread.core])
    htables₁ hlen (fun t ht => by rw [hgeom]; exact hs.loadable hE ht)
  obtain ⟨⟨ps, hps, hnodup, hbrk, htab, hdata⟩, hnum, -, -, hg2, hh2⟩ := hl
  have hdisk : s₂.disk = s.disk := hd2.trans hread.disk
  rw [show s₁.disk = s.disk from hread.disk] at hdata
  -- the last step of `scsi_swap_core_init`
  set s₃ : World := { s₂ with core := { s₂.core with deviceDead := 0, user := 0 } } with hs₃
  have hlist : s₃.view.list = ps := hps
  have htables : s₃.view.tables = s.view.tables := by
    rw [← hm, ← htab, View.tables, hlist, List.map_map]
    rfl
  have hdata₃ : ∀ p ∈ s₃.view.list, (s₃.view.info p).data = some (blockAt s.disk (s₃.view.info p).table) := by
    intro p hp
    obtain ⟨d, hd, rfl⟩ := hdata p (hlist ▸ hp)
    exact hd
  have hhead₃ : s₃.view.head = s.view.head := by
    show s₂.core.head.unsealed = _
    rw [hh2]
    show s₁.core.head.unsealed = _
    rw [hhead]
    rfl
  have hnum₃ : s₃.view.num = s.view.num := by
    have : m.length = s.view.tables.length := by rw [← hm, List.length_map]
    show s₂.core.infoNum = _
    rw [hnum, this, View.tables, List.length_map, hs.inv.num]
    exact Nat.zero_add _
  have hst : s₃.view.Stored R s.disk := hs.reload (hg2.trans hgeom) hhead₃ htables hnum₃
    (fun p hp => (hbrk p (hlist ▸ hp)).2) (hlist ▸ hnodup) hdata₃
  have hblocks : s₃.mappedBlocks = s.mappedBlocks := by
    rw [mappedBlocks_eq hdata₃, mappedBlocks_eq hs.data, htables]
  have hbitmap : s₃.view.bitmap = s.view.bitmap := congrArg SwapHead.bitmap hhead₃
  refine ⟨s₃, ?_, hdisk ▸ hst, hblocks, hnum₃, hbitmap, contents_congr hblocks hdisk⟩
  unfold CoreCall.serve scsiSwapCoreInit
  dsimp only
  rw [run_bind_of hdestroy]
  have hinit : (scsiSwapCoreInit E R).run { s with core := { s.core with infoList := [], deviceDead := n } } =
      some (true, s₃) := by
    unfold scsiSwapCoreInit
    rw [run_modify_bind]
    refine (run_bind_of h1).trans ?_
    rw [if_pos rfl]
    exact run_bind_of h2
  exact run_bind_of hinit

/-! ## The first start -/

theorem swapCheckBlockBySector_sound {secStart : ℕ} (hE : E.SoundReserve R) (hR : R + maxReservedSector ≤ 2 ^ 32)
    (hlo : R ≤ secStart) : ∀ {n i : ℕ} {s s' : World} {o : Option ℕ},
      (swapCheckBlockBySector E secStart n i).run s = some (o, s') → secStart + i + n ≤ R + maxReservedSector →
      o = none ∧ Dev (fun x => secStart ≤ x ∧ x < secStart + i + n) s s' := by
  intro n
  induction n with
  | zero =>
    intro i s s' o h _
    obtain ⟨rfl, rfl⟩ := run_pure_iff.1 h
    exact ⟨rfl, Dev.refl _⟩
  | succ n ih =>
    intro i s s' o h hhi
    unfold swapCheckBlockBySector at h
    obtain ⟨ok, s₁, h1, h2⟩ := run_bind_iff.1 h
    obtain ⟨rfl, -⟩ := hE.wrote hR h1 (by omega) (by omega) (by decide) (by decide)
    have hd := (hdWriteSector_dev h1).mono (B := fun x => secStart ≤ x ∧ x < secStart + i + (n + 1))
      fun x hx => by
      rw [cmdRange_one, Nat.mod_eq_of_lt (by omega)] at hx
      omega
    obtain ⟨rfl, hd'⟩ := ih h2 (by omega)
    exact ⟨rfl, hd.dev (hd'.mono fun x hx => by omega)⟩

/-- A new head goes to the first block. -/
theorem swapCreateNewHead_sound {a : Bool} (hE : E.SoundReserve R) (hR : R + maxReservedSector ≤ 2 ^ 32)
    (hs : s.geom.head = R + swapHeadOffest) (h : (swapCreateNewHead E).run s = some (a, s')) :
    s'.HeadStored R ∧ s'.geom = s.geom ∧
      ∀ x, ¬ (R + swapHeadOffest ≤ x ∧ x < R + swapHeadOffest + 128) → s'.disk x = s.disk x := by
  unfold swapCreateNewHead at h
  rw [run_modify_bind] at h
  unfold createHeadLoop at h
  rw [run_get_bind] at h
  obtain ⟨o, s₁, h1, h2⟩ := run_bind_iff.1 h
  rw [show (s.setHead SwapHead.zero).core.sectorHead = R + swapHeadOffest from hs] at h1
  obtain ⟨rfl, hd1⟩ := swapCheckBlockBySector_sound hE hR (by omega) h1
    (by simp only [swapHeadOffest, sector8M, maxReservedSector]; omega)
  have hg1 : s₁.geom = s.geom := hd1.geom
  dsimp only at h2
  rw [run_modify_bind] at h2
  unfold swapCreateNewHead' at h2
  rw [run_modify_bind] at h2
  -- the marks are set, and the head is written
  obtain ⟨-, hheads⟩ := flushSwapHead_sound hE hR (hg1 ▸ hs) h2
  have hd2 := flushSwapHead_dev h2
  refine ⟨⟨?_, hheads⟩, hd2.geom.trans hg1, fun x hx => ?_⟩
  · rw [hd2.view]
    exact ⟨hasPrefix_strncpy _ _ (by decide), hasPrefix_strncpy _ _ (by decide)⟩
  · have hne : ¬ HeadArea s₁.geom x := by
      have hsec : s₁.geom.head = R + swapHeadOffest := hg1 ▸ hs
      rintro (he | he) <;> rw [hsec] at he <;>
        simp only [swapHeadOffest, sector8M, maxReservedSector] at * <;> omega
    exact (hd2.disk x hne).trans (hd1.disk x hx)

theorem state_zeroSector : (swapHeadEquiv.symm zeroSector).state = .empty := by
  unfold SwapHead.state
  rw [if_neg (by decide)]

/-- On an all-zero reserve `init_swap_head` makes a new head. -/
theorem initSwapHead_zero {a : Bool} (hE : E.SoundReserve R) (hR : R + maxReservedSector ≤ 2 ^ 32)
    (h : (initSwapHead E (R + swapHeadOffest)).run s = some (a, s')) (hz : ZeroReserve R s.disk)
    (hs : s.geom.head = R + swapHeadOffest) : s'.HeadStored R ∧ s'.geom = s.geom ∧
      ∀ x, ¬ (R + swapHeadOffest ≤ x ∧ x < R + swapHeadOffest + 128) → s'.disk x = s.disk x := by
  obtain ⟨s₁, h1, hc1, hd1⟩ := swapGetHeadState_sound hE hR (k := swapHeadOffest) (by decide) s.core.head s
  rw [hz _ (by decide), state_zeroSector] at h1
  set x := swapHeadEquiv.symm zeroSector
  obtain ⟨s₂, h2, hc2, hd2⟩ := swapGetHeadState_sound hE hR (k := swapHeadOffest + 64)
    (by decide) SwapHead.zero (s₁.setHead x)
  rw [show (s₁.setHead x).disk = s.disk from hd1, hz _ (by decide), state_zeroSector, ← Nat.add_assoc] at h2
  have hg2 : s₂.geom = s.geom := by
    have e1 : s₂.geom = (s₁.setHead x).geom := (hc2.loads (Q := fun _ _ => True)).geom
    exact e1.trans (hc1.loads (Q := fun _ _ => True)).geom
  unfold initSwapHead initHeadLoop at h
  rw [run_get_bind, run_bind_of h1] at h
  dsimp only at h
  rw [run_modify_bind, if_neg (by simp), run_bind_of h2] at h
  dsimp only at h
  rw [if_neg (by simp), if_neg (by simp), if_neg (by simp)] at h
  obtain ⟨ok, s₃, h3, h4⟩ := run_bind_iff.1 h
  obtain ⟨hhead, hg3, hd3⟩ := swapCreateNewHead_sound hE hR (hg2 ▸ hs) h3
  have hsame : s'.view = s₃.view ∧ s'.disk = s₃.disk := by
    cases ok with
    | true =>
      obtain ⟨-, rfl⟩ := run_pure_iff.1 h4
      exact ⟨rfl, rfl⟩
    | false =>
      obtain ⟨u, s₄, h5, h6⟩ := run_bind_iff.1 h4
      obtain ⟨-, rfl⟩ := run_pure_iff.1 h6
      have hd := deviceDeadInc_dev (A := fun _ => False) h5
      exact ⟨hd.view, funext fun x => hd.disk x id⟩
  refine ⟨⟨hsame.1 ▸ hhead.named, ?_⟩, ?_, fun y hy => ?_⟩
  · rw [hsame.1, hsame.2]
    exact hhead.heads
  · exact (congrArg View.geom hsame.1).trans (hg3.trans hg2)
  · rw [hsame.2, hd3 y hy, hd2]
    exact congrFun hd1 y

theorem tablesHold_nil (h : ∀ a, a = swapTableOffset ∨ a = swapTableBackupOffset →
    ∀ k < 32, area disk R a k = zeroSector) :
    TablesHold R disk [] := by
  intro a ha k hk
  rw [h a ha k hk]
  exact ⟨(holds_zero.content (Nat.zero_le _) (by simp)).trans (by simp [pack]), holds_zero.slotsIn⟩

/-- With no mappings there is only a head to store. -/
theorem View.Stored.empty (hg : v.geom.Ok) (hr : v.geom.reserve = R) (hsec : v.geom.head = R + swapHeadOffest)
    (hl : v.list = []) (hn : v.num = 0) (hnamed : v.head.Named)
    (hheads : ∀ k, k = 0 ∨ k = 64 → area disk R swapHeadOffest k = swapHeadEquiv v.head.seal)
    (htab : TablesHold R disk []) : v.Stored R disk := by
  have htables : v.tables = [] := by rw [View.tables, hl]; rfl
  refine ⟨⟨hg, ?_, ?_, ?_, ?_, ?_, ?_⟩, ⟨?_, ?_, ?_, ?_⟩, hr, hsec, hnamed, hheads, htables.symm ▸ htab, ?_⟩
  · rw [hn, hl]; rfl
  all_goals rw [hl]; simp

/-- The core after a first start: no mappings, and a head. -/
theorem scsiSwapCoreInit_empty (hE : E.SoundReserve R) (hR : R + maxReservedSector ≤ 2 ^ 32)
    (hz : ZeroReserve R s.disk) (h : (scsiSwapCoreInit E R).run s = some (true, s')) :
    s'.HeadStored R ∧ s'.geom = { s.geom with
        reserve := R, head := R + swapHeadOffest, table := R + swapTableOffset, data := R + swapDataOffset } ∧
      s'.view.list = [] ∧ s'.view.num = 0 ∧ TablesHold R s'.disk [] := by
  unfold scsiSwapCoreInit at h
  rw [run_modify_bind] at h
  obtain ⟨ok, s₁, h1, h2⟩ := run_bind_iff.1 h
  obtain ⟨hhead, hg1, hd1⟩ := initSwapHead_zero hE hR h1 hz rfl
  cases ok with
  | false => exact absurd (run_pure_iff.1 h2).1 (by simp)
  | true =>
    rw [if_pos rfl] at h2
    obtain ⟨ok, s₂, h3, h4⟩ := run_bind_iff.1 h2
    -- the tables are as they were
    have htab : TablesHold R s₁.disk [] := by
      refine tablesHold_nil fun a ha k hk => ?_
      have ho : a + k < maxReservedSector ∧ (a + k < swapHeadOffest ∨ swapHeadOffest + 128 ≤ a + k) := by
        simp only [swapTableOffset, swapTableBackupOffset, swapHeadOffest, maxReservedSector, sector8M] at ha ⊢
        omega
      unfold area
      rw [hd1 _ (by rw [Nat.mod_eq_of_lt (by omega)]; omega)]
      exact hz _ ho.1
    obtain ⟨s₃, m, h5, hm, hd2, hl⟩ :=
      initSwapInfo_holds hE hR (congrArg Geom.table hg1) (congrArg Geom.reserve hg1)
      htab (Nat.zero_le _) (by simp)
    obtain rfl : m = [] := by simpa using hm
    obtain ⟨rfl, rfl⟩ := run_det h5 h3
    rw [if_pos rfl, run_modify_bind] at h4
    obtain ⟨-, rfl⟩ := run_pure_iff.1 h4
    obtain ⟨⟨ps, hps, -, -, hnil, -⟩, hnum, -, -, hg2, hh2⟩ := hl
    obtain rfl : ps = [] := by simpa using hnil
    refine ⟨⟨?_, ?_⟩, hg2.trans hg1, hps, hnum, ?_⟩
    · show s₂.core.head.unsealed.Named
      rw [hh2]
      exact hhead.named
    · show ∀ k, _ → area s₂.disk R swapHeadOffest k = swapHeadEquiv s₂.core.head.unsealed.seal
      rw [hd2, hh2]
      exact hhead.heads
    · show TablesHold R s₂.disk []
      rw [hd2]
      exact htab

/-- **The first start**, on an all-zero reserve. -/
theorem scsiSwapInit_stored {w : World} (hE : E.SoundReserve R) (hR : R + maxReservedSector ≤ 2 ^ 32)
    (hz : ZeroReserve R w.disk) (h : (scsiSwapInit E R).run w = some (true, s)) : s.view.Stored R s.disk := by
  unfold scsiSwapInit at h
  obtain ⟨ok, s₁, h1, h2⟩ := run_bind_iff.1 h
  have hd : Dev (fun _ => False) w s₁ := kmalloc_dev h1
  cases ok with
  | false => exact absurd (run_pure_iff.1 h2).1 (by simp)
  | true =>
    rw [if_pos rfl, run_modify_bind] at h2
    obtain ⟨ok, s₂, h3, h4⟩ := run_bind_iff.1 h2
    cases ok with
    | false => exact absurd (run_pure_iff.1 h4).1 (by simp)
    | true =>
      rw [if_pos rfl] at h4
      obtain ⟨b, s₃, h5, h6⟩ := run_bind_iff.1 h4
      obtain ⟨-, rfl⟩ := run_pure_iff.1 h6
      obtain ⟨hdisk, g, hv, hgeo, hlog⟩ := scsiSwapLogInit_view h5
      have hz₁ : ZeroReserve R s₁.disk := fun k hk => (hd.disk _ id).trans (hz k hk)
      obtain ⟨hs₂, hg₂, hl₂, hn₂, htab₂⟩ := scsiSwapCoreInit_empty (s := s₁.fresh) hE hR hz₁ h3
      rw [hv, funext hdisk]
      rw [hg₂] at hgeo
      have e1 : g.reserve = R := by rw [hgeo]
      have e2 : g.head = R + swapHeadOffest := by rw [hgeo]
      have hgo : g.Ok := by
        refine ⟨by rw [e1]; exact hR, by rw [hgeo], by rw [hgeo], ?_, by rw [e1]; exact hlog⟩
        rw [e1, e2]
        simp only [swapHeadOffest, sector8M, maxSwapHeadBlockNum]
        omega
      exact View.Stored.empty hgo e1 e2 hl₂ hn₂ hs₂.named hs₂.heads htab₂

/-! ## Runs -/

/-- A request for the disk below the reserve, or a restart. -/
def CoreCall.Below (R : ℕ) : CoreCall → Prop
  | .request o => o.start + o.count ≤ R
  | .restart => True

/-- **Restart durability.** On a device whose reserve has no fault, whatever the disk below it does: in every
state reached from a start on an all-zero reserve by requests below the reserve and restarts, in any order, a
restart returns 0 and gives back the mapping list with all its data, its length and the bitmap. No user sector
changes. -/
theorem restart_restores {w s₁ : World} (hR : R + maxReservedSector < 2 ^ 31) (hE : E.SoundReserve R)
    (hz : ZeroReserve R w.disk) (hinit : (scsiSwapInit E R).run w = some (true, s₁))
    (h : Reach (CoreCall.serve E R) (fun _ c => c.Below R) s₁ s) :
    ∃ s', (CoreCall.restart.serve E R).run s = some (.inr true, s') ∧ s'.mappedBlocks = s.mappedBlocks ∧
      s'.core.infoNum = s.core.infoNum ∧ s'.core.head.bitmap = s.core.head.bitmap ∧
      ∀ x < R, s'.contents x = s.contents x := by
  have hstored : s.view.Stored R s.disk := by
    refine h.inv (I := fun t => t.view.Stored R t.disk) (scsiSwapInit_stored hE (by omega) hz hinit) ?_
    intro t c r t' ht hc hserve
    cases c with
    | request o =>
      obtain ⟨a, t₁, h1, h2⟩ := run_bind_iff.1 hserve
      obtain ⟨-, rfl⟩ := run_pure_iff.1 h2
      exact serve_stored hE hR hc ht h1
    | restart =>
      obtain ⟨t₁, h1, hres⟩ := coreRestart_stored hE ht
      obtain ⟨-, rfl⟩ := run_det h1 hserve
      exact hres.stored
  obtain ⟨s', hrun, hres⟩ := coreRestart_stored hE hstored
  exact ⟨s', hrun, hres.blocks, hres.num, hres.bitmap, fun x _ => hres.contents x⟩

/-- A disk that can write none of its 1000 user sectors: two writes make two mappings, and two restarts bring
them back. -/
theorem restart_restores_two :
    let E := Env.refusing fun c _ => c.lba < 1000
    let cs : List CoreCall := [.request (Request.fill 0 1), .request ⟨true, 300, 5, 2 ^ 64 - 1, fun _ _ => 2⟩]
    ∃ s₁ s t t' as, (scsiSwapInit E 1000).run World.blank = some (true, s₁) ∧
      (runAll (CoreCall.serve E 1000) cs).run s₁ = some (as, s) ∧
      s.mappedBlocks.map (fun m => (m.srcSec, m.index)) = [(0, 0), (256, 1)] ∧
      (CoreCall.restart.serve E 1000).run s = some (.inr true, t) ∧
      (CoreCall.restart.serve E 1000).run t = some (.inr true, t') ∧
      t'.mappedBlocks = s.mappedBlocks ∧ ∀ x < 1000, t'.contents x = s.contents x := by
  intro E cs
  have hE : E.SoundReserve 1000 := by
    refine ⟨fun _ _ _ _ => rfl, fun t c buf hlo _ => ?_, fun _ => rfl⟩
    exact if_neg (by simpa using hlo)
  have hrun : ((do
      let ok ← scsiSwapInit E 1000
      let _ ← runAll (CoreCall.serve E 1000) cs
      let s ← get
      return (ok, s.mappedBlocks.map fun m => (m.srcSec, m.index)) :
        SwapM (Bool × List (BitVec 64 × BitVec 32))).run World.blank).map Prod.fst =
      some (true, [(0, 0), (256, 1)]) := by decide +kernel
  obtain ⟨s', h⟩ := run_of_result hrun
  obtain ⟨ok, s₁, h1, h2⟩ := run_bind_iff.1 h
  obtain ⟨as, s₂, h3, h4⟩ := run_bind_iff.1 h2
  rw [run_get_bind] at h4
  obtain ⟨e, rfl⟩ := run_pure_iff.1 h4
  obtain ⟨rfl, hblocks⟩ := Prod.mk.inj e
  have hreach := (Reach.start (P := fun _ c => CoreCall.Below 1000 c)).runAll (by
    intro c hc _
    revert c
    simp [cs, CoreCall.Below, Request.fill]) h3
  obtain ⟨t, hr, hsame, -, -, hx⟩ := restart_restores (by decide) hE (fun _ _ => rfl) h1 hreach
  obtain ⟨t', hr', hsame', -, -, hx'⟩ := restart_restores (by decide) hE (fun _ _ => rfl) h1
    (hreach.step (show CoreCall.restart.Below 1000 from trivial) hr)
  exact ⟨s₁, s', t, t', as, h1, h3, hblocks.symm, hr, hr', hsame'.trans hsame,
    fun x hlt => (hx' x hlt).trans (hx x hlt)⟩

end ScsiSwap
