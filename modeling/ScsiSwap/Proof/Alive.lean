import ScsiSwap.Lib.Triple
import ScsiSwap.Proof.LogCalls
import ScsiSwap.Proof.Start
import ScsiSwap.Proof.Unreadable

/-!
# Requests do not kill the kernel

The I/O paths follow pointers without a look: to the data of a mapping, and to the ring of the log.

* `World.Backed D`: the listed mappings and those in `D` have data, and the log has a ring that stays in its
  buffer;
* one lemma a function: it comes to its end, and leaves such a state;
* `requests_never_die`: so does every run of requests and calls on the log, whatever the ranges and the device
  are.
-/

namespace ScsiSwap

open StateOption

variable {E : Env} {s s' : World} {D : ℕ → Prop} {p : ℕ} {i : SwapInfo}

/-- No pointer that the I/O paths may follow is null: the listed mappings have data, and so have those in `D`,
and the slots of the log are in their buffer. -/
structure World.Backed (D : ℕ → Prop) (s : World) : Prop where
  log : s.LogSafe
  list : ∀ p ∈ s.core.infoList, (s.heap p).data.isSome = true
  data : ∀ p, D p → (s.heap p).data.isSome = true

/-- `x` comes to its end and leaves `Backed D` as it is. -/
abbrev Safely (D : ℕ → Prop) {α : Type} (x : SwapM α) : Prop := Ensures (World.Backed D) x fun _ => World.Backed D

namespace World.Backed

theorem calm (h : s.Backed D) (hc : Calm s s') : s'.Backed D := by
  obtain ⟨r, hring, hr⟩ := h.log
  refine ⟨⟨r, by rw [hc.log, hring], hr⟩, ?_, ?_⟩
  · rw [hc.core, hc.heap]
    exact h.list
  · rw [hc.heap]
    exact h.data

/-- Other fields of the core do not matter. -/
theorem core (h : s.Backed D) {c : Core} (hc : c.infoList = s.core.infoList) :
    World.Backed D { s with core := c } :=
  ⟨h.log, fun p hp => h.list p (hc ▸ hp), h.data⟩

theorem mono (h : s.Backed D) {D' : ℕ → Prop} (hD : ∀ p, D' p → D p) : s.Backed D' :=
  ⟨h.log, h.list, fun p hp => h.data p (hD p hp)⟩

/-- A mapping that has data before and after an update. -/
theorem update (h : s.Backed D) (hi : (s.heap p).data.isSome = true → i.data.isSome = true) :
    (s.setInfo p i).Backed D := by
  have hkeep : ∀ q, (s.heap q).data.isSome = true → ((s.setInfo p i).heap q).data.isSome = true := by
    intro q hq
    unfold World.setInfo
    dsimp only
    rw [Function.update_apply]
    split
    · rename_i hqp
      exact hi (hqp ▸ hq)
    · exact hq
  exact ⟨h.log, fun q hq => hkeep q (h.list q hq), fun q hq => hkeep q (h.data q hq)⟩

end World.Backed

/-! ## Commands and flushes -/

theorem hdReadSector_safely (r sector n : ℕ) : Safely D (hdReadSector E r sector n) :=
  .of_total (hdReadSector_total ..) fun _ _ _ hs h => hs.calm (hdReadSector_calm h).1

theorem hdWriteSector_safely (w : Writer) (r sector n : ℕ) (buf : ℕ → Sector) :
    Safely D (hdWriteSector E w r sector n buf) :=
  .of_total (hdWriteSector_total ..) fun _ _ _ hs h => hs.calm (hdWriteSector_calm h)

theorem kmalloc_safely : Safely D (kmalloc E) :=
  .of_total kmalloc_total fun _ _ _ hs h => hs.calm (kmalloc_calm h)

theorem setBitmap_safely (f : World → BitVec 1024) :
    Safely D (modify fun s => s.setBitmap (f s) : SwapM Unit) :=
  .modify fun _ hs => hs.core rfl

theorem deviceDeadInc_safely : Safely D deviceDeadInc := .modify fun _ hs => hs.core rfl

theorem flushSwapInfoData_safely (p : ℕ) : Safely D (flushSwapInfoData E p) := by
  refine .get_bind fun s hs => ?_
  dsimp only
  split
  · exact Ensures.pure_at hs
  · exact (hdWriteSector_safely ..).at_state hs

theorem writeSkip_safely (buffer : Sector) (limit : ℕ) :
    ∀ fuel sect, Safely D (writeSkip E buffer limit fuel sect) := by
  intro fuel
  induction fuel with
  | zero =>
    intro sect
    unfold writeSkip
    exact (hdWriteSector_safely ..).bind fun _ => .ite (fun _ => .pure fun _ hs => hs) fun _ =>
      .pure fun _ hs => hs
  | succ fuel ih =>
    intro sect
    unfold writeSkip
    exact (hdWriteSector_safely ..).bind fun _ => .ite (fun _ => .pure fun _ hs => hs) fun _ => ih _

theorem flushTableSector_safely (buffer : Sector) (sect back : ℕ) :
    Safely D (flushTableSector E buffer sect back) := by
  refine .get_bind fun s hs => ?_
  dsimp only
  refine Ensures.bind ((writeSkip_safely ..).at_state hs) fun _ => ?_
  exact (writeSkip_safely ..).bind fun _ => .pure fun _ hs => hs

theorem flushTableLoop_safely : ∀ (ps : List ℕ) (i : ℕ) (buffer : Sector) (sect back : ℕ),
    Safely D (flushTableLoop E ps i buffer sect back) := by
  intro ps
  induction ps with
  | nil =>
    intro i buffer sect back
    unfold flushTableLoop
    exact .ite (fun _ => (flushTableSector_safely ..).bind fun _ => .pure fun _ hs => hs) fun _ =>
      .pure fun _ hs => hs
  | cons p ps ih =>
    intro i buffer sect back
    unfold flushTableLoop
    refine .get_bind fun s hs => ?_
    dsimp only
    -- only the record of where the entry is saved changes
    have hs' := hs.update (p := p)
      (i := { s.heap p with table := { (s.heap p).table with saveSec := .ofNat 64 sect } }) id
    refine .set_bind (.ite (fun _ => ?_) fun _ => (ih ..).at_state hs')
    exact ((flushTableSector_safely ..).at_state hs').bind fun _ => ih ..

theorem flushSwapInfoTable_safely : Safely D (flushSwapInfoTable E) := by
  refine .get_bind fun s hs => ?_
  exact ((flushTableLoop_safely ..).at_state hs).bind fun _ => .pure fun _ hs => hs

theorem flushSwapHead_safely : Safely D (flushSwapHead E) := by
  refine .get_bind fun s hs => ?_
  dsimp only
  refine .set_bind (((hdWriteSector_safely ..).at_state ?_).bind fun _ => hdWriteSector_safely ..)
  exact hs.core rfl

/-! ## The log -/

theorem scsiSwapLogPush_safely (type result : BitVec 8) (src dst : BitVec 64) (count : BitVec 16) :
    Safely D (scsiSwapLogPush E type result src dst count) := by
  refine ⟨fun s hs => ?_⟩
  obtain ⟨r, hring, hr⟩ := hs.log
  obtain ⟨last, hlast⟩ := scsiSwapLogLast_safe (s := s) hr
  obtain ⟨slot, r', hpush, hr'⟩ := hr.push (LogEntry.item ⟨type, result, src, dst, count⟩ (E.clock s.tick) last)
  obtain ⟨b, s', hrun, hring'⟩ := push_run (E := E) hring hlast hpush
  have hdev := scsiSwapLogPush_dev hrun
  have hlist : s'.core.infoList = s.core.infoList := congrArg View.list hdev.view
  refine ⟨b, s', hrun, ⟨r', hring', hr'⟩, fun p hp => ?_, fun p hp => ?_⟩
  · rw [hdev.data p]
    exact hs.list p (hlist ▸ hp)
  · rw [hdev.data p]
    exact hs.data p hp

/-! ## Spare blocks -/

theorem swapCheckBlock_safely (secStart : ℕ) : Safely D (swapCheckBlock E secStart) :=
  kmalloc_safely.bind fun _ => .ite (fun _ => hdWriteSector_safely ..) fun _ => .pure fun _ hs => hs

theorem swapAllocLoop_safely : ∀ left index, Safely D (swapAllocLoop E left index) := by
  intro left
  induction left with
  | zero =>
    intro index
    unfold swapAllocLoop
    refine .get_bind fun s hs => ((swapCheckBlock_safely _).at_state hs).bind fun _ =>
      .ite (fun _ => ?_) fun _ => ?_
    · exact (setBitmap_safely _).bind fun _ => .pure fun _ hs => hs
    · exact deviceDeadInc_safely.bind fun _ => .pure fun _ hs => hs
  | succ left ih =>
    intro index
    unfold swapAllocLoop
    refine .get_bind fun s hs => ((swapCheckBlock_safely _).at_state hs).bind fun _ =>
      .ite (fun _ => ?_) fun _ => ?_
    · exact (setBitmap_safely _).bind fun _ => .pure fun _ hs => hs
    · refine (setBitmap_safely _).bind fun _ => .get_bind fun t ht => ?_
      split
      · exact Ensures.pure_at ht
      · exact (ih _).at_state ht

theorem swapAllocNewBlock_safely : Safely D (swapAllocNewBlock E) := by
  refine .get_bind fun s hs => ?_
  split
  · exact Ensures.pure_at hs
  · exact (swapAllocLoop_safely ..).at_state hs

/-! ## Mappings -/

theorem copyAround_safely (p sector off len : ℕ) : Safely D (copyAround E p sector off len) := by
  refine .ite (fun _ => (hdReadSector_safely ..).bind fun r => .modify fun s hs => ?_) fun _ =>
    .pure fun _ hs => hs
  refine hs.update fun hp => ?_
  dsimp only
  rw [Option.isSome_map, hp]

theorem swapCreate'_safely (p src : ℕ) (needZeroOffset needZeroLen : ℤ) :
    Safely D (swapCreate' E p src needZeroOffset needZeroLen) := by
  refine swapAllocNewBlock_safely.bind fun o => ?_
  cases o with
  | none => exact .pure fun _ hs => hs
  | some index =>
    refine (copyAround_safely ..).bind fun _ => (copyAround_safely ..).bind fun _ => ?_
    refine Ensures.bind (.modify fun s hs => ?_) fun _ => .pure fun _ hs => hs
    exact hs.update id

/-- A new entry has data from the start. -/
theorem swapAllocInfo_safely :
    Ensures (World.Backed D) (swapAllocInfo E) fun o => World.Backed fun p => o = some p := by
  have hnone : ∀ s : World, s.Backed D → s.Backed fun p => (none : Option ℕ) = some p :=
    fun s hs => ⟨hs.log, hs.list, fun p hp => absurd hp (by simp)⟩
  refine kmalloc_safely.bind fun _ => .ite (fun _ => ?_) fun _ => .pure hnone
  refine kmalloc_safely.bind fun _ => .ite (fun _ => .get_bind fun s hs => ?_) fun _ => .pure hnone
  refine .set_bind (.pure ?_)
  rintro _ rfl
  have hnew := hs.update (p := s.brk) (i := ⟨SwapTable.zero, some fun _ => zeroSector⟩) fun _ => rfl
  refine ⟨hnew.log, hnew.list, fun p hp => ?_⟩
  rw [← Option.some.inj hp]
  unfold World.setInfo
  dsimp only
  rw [Function.update_self]
  rfl

theorem swapCreateTry_safely (sectorStart sectorCount : ℕ) :
    Ensures (World.Backed D) (swapCreateTry E sectorStart sectorCount) fun r =>
      World.Backed fun p => r = .inl p := by
  have hinr : ∀ (reason : LogCreateFailed) (D : ℕ → Prop) (s : World), s.Backed D →
      s.Backed fun p => (Sum.inr reason : ℕ ⊕ LogCreateFailed) = .inl p :=
    fun reason D s hs => hs.mono fun p hp => absurd hp (by simp)
  refine .get_bind fun s hs => .ite (fun _ => Ensures.pure_at (hinr _ D s hs)) fun _ => ?_
  refine Ensures.bind (swapAllocInfo_safely.at_state hs) fun o => ?_
  cases o with
  | none => exact .pure fun t ht => hinr _ _ t ht
  | some p =>
    refine (swapCreate'_safely ..).bind fun _ => .ite (fun _ => ?_) fun _ => .pure fun t ht => hinr _ _ t ht
    refine flushSwapHead_safely.bind fun _ => .ite (fun _ => .pure fun t ht => ht.mono fun q hq => ?_) fun _ => ?_
    · rw [Sum.inl.inj hq]
    · exact (setBitmap_safely _).bind fun _ => .pure fun t ht => hinr _ _ t ht

theorem swapCreate_safely (sectorStart sectorCount : ℕ) :
    Ensures (World.Backed D) (swapCreate E sectorStart sectorCount) fun o =>
      World.Backed fun p => o = some p := by
  refine (swapCreateTry_safely ..).bind fun r => ?_
  cases r with
  | inl p =>
    refine .get_bind fun s hs => ?_
    dsimp only
    refine ((scsiSwapLogPush_safely ..).at_state hs).bind fun _ => .pure fun t ht => ht.mono fun q hq => ?_
    rw [Option.some.inj hq]
  | inr reason =>
    exact (scsiSwapLogPush_safely ..).bind fun _ => .pure fun t ht => ht.mono fun q hq => absurd hq (by simp)

theorem swapRead'_safely (hp : D p) (sectorStart sectorCount : ℕ) (buf : ℕ → Sector) (off : ℕ) :
    Safely D (swapRead' p sectorStart sectorCount buf off) := by
  refine .get_bind fun s hs => ?_
  obtain ⟨d, hd⟩ := Option.isSome_iff_exists.1 (hs.data p hp)
  rw [hd]
  exact Ensures.pure_at hs

theorem swapWrite'_safely (hp : D p) (sectorStart sectorCount : ℕ) (buf : ℕ → Sector) :
    Safely D (swapWrite' E p sectorStart sectorCount buf) := by
  refine .get_bind fun s hs => ?_
  obtain ⟨d, hd⟩ := Option.isSome_iff_exists.1 (hs.data p hp)
  rw [hd]
  exact .set_bind ((flushSwapInfoData_safely p).at_state (hs.update fun _ => rfl))

theorem rereadSector_safely (hp : D p) (i : ℕ) : Safely D (rereadSector E p i) := by
  refine .get_bind fun s hs => ?_
  obtain ⟨d, hd⟩ := Option.isSome_iff_exists.1 (hs.data p hp)
  rw [hd]
  refine ((hdReadSector_safely ..).at_state hs).bind fun r => .modify fun t ht => ht.update fun hsome => ?_
  dsimp only
  rw [Option.isSome_map, hsome]

theorem swapRecreate_safely (hp : D p) : Safely D (swapRecreate E p) := by
  refine .get_bind fun s hs => .ite (fun _ => Ensures.pure_at hs) fun _ => ?_
  refine Ensures.bind (swapAllocNewBlock_safely.at_state hs) fun o => ?_
  cases o with
  | none => exact .pure fun _ hs => hs
  | some index =>
    refine (Ensures.forM (rereadSector_safely hp) _).bind fun _ => ?_
    refine Ensures.bind (Q := fun _ => World.Backed D) (.modify fun s hs => hs.update id) fun _ => ?_
    refine Ensures.bind (Q := fun _ => World.Backed D) ?_ fun ok => ?_
    · refine (flushSwapInfoData_safely p).bind fun _ => .ite (fun _ => ?_) fun _ => .pure fun _ hs => hs
      exact flushSwapInfoTable_safely.bind fun _ => .ite (fun _ => flushSwapHead_safely) fun _ =>
        .pure fun _ hs => hs
    · refine .ite (fun _ => .pure fun _ hs => hs) fun _ => ?_
      exact (setBitmap_safely _).bind fun _ => .pure fun _ hs => hs

theorem swapWrite_safely (hp : D p) (sectorStart sectorCount : ℕ) (buf : ℕ → Sector) :
    Safely D (swapWrite E p sectorStart sectorCount buf) := by
  have hwrite := swapWrite'_safely (E := E) hp sectorStart sectorCount buf
  refine hwrite.bind fun _ => .ite (fun _ => .pure fun _ hs => hs) fun _ => ?_
  refine (swapRecreate_safely hp).bind fun _ => .ite (fun _ => ?_) fun _ => .pure fun _ hs => hs
  exact hwrite.bind fun _ => .ite (fun _ => .pure fun _ hs => hs) fun _ => .pure fun _ hs => hs

/-! ## Rounds -/

theorem swapRepairSuccessiveSectors_safely : Safely D (swapRepairSuccessiveSectors E) := by
  have hready : Safely D (hdTestUnitReady E) := ⟨fun s hs => ⟨_, _, rfl, hs.log, hs.list, hs.data⟩⟩
  refine hready.bind fun _ => .ite (fun _ => .pure fun _ hs => hs) fun _ => ?_
  exact deviceDeadInc_safely.bind fun _ => .pure fun _ hs => hs

theorem repairAndCreate_safely (sStart sCount : ℕ) :
    Ensures (World.Backed D) (repairAndCreate E sStart sCount) fun o => World.Backed fun p => o = some p := by
  refine swapRepairSuccessiveSectors_safely.bind fun _ => .get_bind fun s hs => .ite (fun _ => ?_) fun _ => ?_
  · exact Ensures.pure_at (hs.mono fun p hp => absurd hp (by simp))
  · exact (swapCreate_safely ..).at_state hs

theorem dropCreated_safely (p : ℕ) : Safely D (dropCreated p) := setBitmap_safely _

theorem enterCreated_safely (hp : D p) : Safely D (enterCreated E p) := by
  refine Ensures.bind (Q := fun _ => World.Backed D)
    (.modify fun s hs => ⟨hs.log, fun q hq => ?_, hs.data⟩) fun _ => ?_
  · rcases List.mem_append.1 hq with hq | hq
    · exact hs.list q hq
    · rw [List.mem_singleton.1 hq]
      exact hs.data p hp
  refine flushSwapInfoTable_safely.bind fun _ => .ite (fun _ => ?_) fun _ => ?_
  · exact Ensures.bind (Q := fun _ => World.Backed D) (.modify fun s hs => hs.core rfl) fun _ =>
      .pure fun _ hs => hs
  · exact (dropCreated_safely p).bind fun _ => .pure fun _ hs => hs

/-- The listed mappings have data, and the slots of the log are in their buffer. -/
abbrev World.Live (s : World) : Prop := s.Backed fun _ => False

theorem World.Backed.live (h : s.Backed D) : s.Live := h.mono fun _ => False.elim

/-- A mapping that is found has data. -/
theorem World.Live.found (h : s.Live) {sector : ℕ} (hp : s.swapFindSwapInfo sector = some p) :
    s.Backed fun q => q = p := by
  refine ⟨h.log, h.list, ?_⟩
  rintro q rfl
  exact h.list q (List.mem_of_find?_eq_some hp)

/-- **A round of a read** comes to its end. -/
theorem coreReadBlock_live (bad : ℤ) (g : Seg) (buf : ℕ → Sector) :
    Ensures World.Live (coreReadBlock E bad g buf) fun _ => World.Live := by
  refine .get_bind fun s hs => ?_
  split
  · rename_i p hp
    refine ((swapRead'_safely (D := fun q => q = p) rfl ..).at_state (hs.found hp)).bind fun _ =>
      .pure fun t ht => ht.live
  refine Ensures.bind (Q := fun _ => World.Live) (.ite (fun _ => ?_) fun _ => ?_) fun r => ?_
  · exact ((hdReadSector_safely ..).at_state hs).bind fun _ => .pure fun _ hs => hs
  · exact Ensures.pure_at hs
  obtain ⟨done, buf₁⟩ := r
  refine .get_bind fun t ht => .ite (fun _ => Ensures.pure_at ht) fun _ => ?_
  refine .ite (fun _ => Ensures.pure_at ht) fun _ => ?_
  refine Ensures.bind ((repairAndCreate_safely ..).at_state ht) fun o => ?_
  cases o with
  | none => exact .pure fun _ ht => ht.live
  | some p =>
    refine .get_bind fun u hu => ?_
    obtain ⟨d, hd⟩ := Option.isSome_iff_exists.1 (hu.data p rfl)
    rw [hd]
    refine ((flushSwapInfoData_safely p).at_state hu).bind fun _ => .ite (fun _ => ?_) fun _ => ?_
    · refine (enterCreated_safely (D := fun q => some p = some q) rfl).bind fun _ =>
        .ite (fun _ => ?_) fun _ => ?_
      · exact .pure fun _ ht => ht.live
      · exact .pure fun _ ht => ht.live
    · exact (dropCreated_safely p).bind fun _ => .pure fun _ ht => ht.live

/-- **A round of a write** comes to its end. -/
theorem coreWriteBlock_live (bad : ℤ) (g : Seg) (buf : ℕ → Sector) :
    Ensures World.Live (coreWriteBlock E bad g buf) fun _ => World.Live := by
  refine .get_bind fun s hs => ?_
  dsimp only
  split
  · rename_i p hp
    refine ((swapWrite_safely (D := fun q => q = p) rfl ..).at_state (hs.found hp)).bind fun r => ?_
    cases r with
    | ok => exact .pure fun _ ht => ht.live
    | dirty => exact .ite (fun _ => .pure fun _ ht => ht.live) fun _ => .pure fun _ ht => ht.live
    | err => exact .pure fun _ ht => ht.live
  refine Ensures.bind (Q := fun _ => World.Live) (.ite (fun _ => ?_) fun _ => ?_) fun done => ?_
  · exact (hdWriteSector_safely ..).at_state hs
  · exact Ensures.pure_at hs
  refine .get_bind fun t ht => .ite (fun _ => Ensures.pure_at ht) fun _ => ?_
  refine .ite (fun _ => Ensures.pure_at ht) fun _ => ?_
  refine Ensures.bind ((repairAndCreate_safely ..).at_state ht) fun o => ?_
  cases o with
  | none => exact .pure fun _ ht => ht.live
  | some p =>
    refine (swapWrite_safely (D := fun q => some p = some q) rfl ..).bind fun r => ?_
    cases r with
    | ok =>
      refine (enterCreated_safely (D := fun q => some p = some q) rfl).bind fun _ =>
        .ite (fun _ => ?_) fun _ => ?_
      swap
      · exact .pure fun _ ht => ht.live
      exact .ite (fun _ => .pure fun _ ht => ht.live) fun _ => .pure fun _ ht => ht.live
    | dirty => exact (dropCreated_safely p).bind fun _ => .pure fun _ ht => ht.live
    | err => exact (dropCreated_safely p).bind fun _ => .pure fun _ ht => ht.live

/-! ## Requests -/

theorem coreReadLoop_live (start : ℕ) (bad : ℤ) : ∀ (n i count off : ℕ) (buf : ℕ → Sector),
    Ensures World.Live (coreReadLoop E start bad n i count off buf) fun _ => World.Live := by
  intro n
  induction n with
  | zero =>
    intro i count off buf
    exact .pure fun _ hs => hs
  | succ n ih =>
    intro i count off buf
    unfold coreReadLoop
    refine (coreReadBlock_live ..).bind fun r => .ite (fun _ => .pure fun _ hs => hs) fun _ => ?_
    exact (ih ..).bind fun _ => .pure fun _ hs => hs

theorem coreWriteLoop_live (start : ℕ) (bad : ℤ) (buf : ℕ → Sector) : ∀ n i count off : ℕ,
    Ensures World.Live (coreWriteLoop E start bad buf n i count off) fun _ => World.Live := by
  intro n
  induction n with
  | zero =>
    intro i count off
    exact .pure fun _ hs => hs
  | succ n ih =>
    intro i count off
    unfold coreWriteLoop
    refine (coreWriteBlock_live ..).bind fun r => .ite (fun _ => .pure fun _ hs => hs) fun _ => ?_
    exact (ih ..).bind fun _ => .pure fun _ hs => hs

theorem serve_live (o : Request) : Ensures World.Live (o.serve E) fun _ => World.Live := by
  have huser : ∀ f : World → ℕ, Ensures World.Live
      (modify fun s => { s with core := { s.core with user := f s } } : SwapM Unit) fun _ => World.Live :=
    fun f => .modify fun s hs => hs.core rfl
  unfold Request.serve
  refine .ite (fun _ => ?_) fun _ => ?_
  · refine Ensures.bind (Q := fun _ => World.Live) (.get_bind fun s hs => ?_) fun _ => .pure fun _ hs => hs
    refine .ite (fun _ => Ensures.pure_at hs) fun _ => ?_
    refine Ensures.bind ((huser _).at_state hs) fun _ => (coreWriteLoop_live ..).bind fun _ => ?_
    exact (huser _).bind fun _ => .pure fun _ hs => hs
  · refine Ensures.bind (Q := fun _ => World.Live) (.get_bind fun s hs => ?_) fun _ => .pure fun _ hs => hs
    refine .ite (fun _ => Ensures.pure_at hs) fun _ => ?_
    refine Ensures.bind ((huser _).at_state hs) fun _ => (coreReadLoop_live ..).bind fun _ => ?_
    exact (huser _).bind fun _ => .pure fun _ hs => hs

/-! ## Runs -/

/-- A call while the disk is in use: a request to the core, or a call on the log. -/
inductive UseCall where
  | request (o : Request)
  | log (c : LogCall)

def UseCall.serve (E : Env) : UseCall → SwapM Unit
  | .request o => do
    let _ ← o.serve E
    return ()
  | .log c => c.run E

theorem useCall_live (c : UseCall) : Ensures World.Live (c.serve E) fun _ => World.Live := by
  cases c with
  | request o => exact (serve_live o).bind fun _ => .pure fun _ hs => hs
  | log c =>
    cases c with
    | push e => exact (scsiSwapLogPush_safely ..).bind fun _ => .pure fun _ hs => hs
    | «show» page =>
      refine ⟨fun s hs => ?_⟩
      obtain ⟨r, hring, hr⟩ := hs.log
      obtain ⟨xs, hxs⟩ := hr.items
      exact ⟨(), s, run_bind_of (scsiSwapLogShow_run hring hxs page), hs⟩

/-- A start that returned 0 has data for every mapping. -/
theorem scsiSwapInit_live {R : ℕ} {w : World} (hinit : (scsiSwapInit E R).run w = some (true, s))
    (hlog : s.LogSafe) : s.Live := by
  refine ⟨hlog, ?_, fun _ => False.elim⟩
  unfold scsiSwapInit at hinit
  obtain ⟨ok, s₁, -, h2⟩ := run_bind_iff.1 hinit
  cases ok with
  | false => exact absurd (run_pure_iff.1 h2).1 (by simp)
  | true =>
    rw [if_pos rfl, run_modify_bind] at h2
    obtain ⟨ok, s₂, h3, h4⟩ := run_bind_iff.1 h2
    cases ok with
    | false => exact absurd (run_pure_iff.1 h4).1 (by simp)
    | true =>
      rw [if_pos rfl] at h4
      obtain ⟨b, s₃, h5, h6⟩ := run_bind_iff.1 h4
      obtain ⟨-, rfl⟩ := run_pure_iff.1 h6
      -- the log has no part in the mappings
      obtain ⟨-, g, hv, -⟩ := scsiSwapLogInit_view h5
      intro p hp
      have hlist : s.core.infoList = s₂.core.infoList := congrArg View.list hv
      have hdata : (s.heap p).data = (s₂.heap p).data := congrArg (fun v : View => (v.info p).data) hv
      rw [hdata]
      exact scsiSwapCoreInit_data h3 p (hlist ▸ hp)

/-- **No request kills the kernel.** After a start that returned 0, on any disk, with a log whose ring stays in
its buffer: every run of requests, with any ranges and any bad sectors, and of calls on the log comes to its
end, whatever the device and the allocator do. -/
theorem requests_never_die {E₀ : Env} {R : ℕ} {w : World} (hinit : (scsiSwapInit E₀ R).run w = some (true, s))
    (hlog : s.LogSafe) (E : Env) (cs : List UseCall) :
    ∃ us s', (runAll (UseCall.serve E) cs).run s = some (us, s') ∧ s'.LogSafe ∧
      ∀ p ∈ s'.core.infoList, (s'.heap p).data.isSome = true := by
  have hlive := scsiSwapInit_live hinit hlog
  obtain ⟨us, s', hrun, hend⟩ := (Ensures.runAll useCall_live cs).run s hlive
  exact ⟨us, s', hrun, hend.log, hend.list⟩

/-- What the state of the ring after a start is, from its evaluation. -/
theorem logSafe_of_result {R : ℕ} {w : World}
    (h : ((do
      let ok ← scsiSwapInit E R
      let s ← get
      return (ok, s.log.ring.map fun r => (r.itemCap, r.itemSize, r.itemNum, r.itemNext)) :
        SwapM (Bool × Option (ℤ × ℤ × ℤ × ℤ))).run w).map Prod.fst = some (true, some (512, 32, 0, 0))) :
    ∃ s, (scsiSwapInit E R).run w = some (true, s) ∧ s.LogSafe := by
  obtain ⟨s', h⟩ := run_of_result h
  obtain ⟨ok, s, h1, h⟩ := run_bind_iff.1 h
  rw [run_get_bind] at h
  obtain ⟨e, -⟩ := run_pure_iff.1 h
  obtain ⟨rfl, hr⟩ := Prod.mk.inj e.symm
  obtain ⟨r, hring, hnums⟩ := Option.map_eq_some_iff.1 hr
  simp only [Prod.mk.injEq] at hnums
  obtain ⟨hcap, hsize, hnum, hnext⟩ := hnums
  exact ⟨s, h1, r, hring, ⟨hcap, hsize, by decide, by decide⟩, by omega, by omega, by omega, by omega, by omega⟩

/-- A blank disk whose commands all fail after the start. -/
theorem requests_never_die_scarred :
    ∃ s, (scsiSwapInit (Env.refusing fun _ _ => false) 1000).run World.blank = some (true, s) ∧ s.LogSafe ∧
      ∀ cs, ∃ us s', (runAll (UseCall.serve (Env.scarred fun _ => true)) cs).run s = some (us, s') := by
  obtain ⟨s, h1, hlog⟩ := logSafe_of_result (E := Env.refusing fun _ _ => false) (R := 1000) (w := World.blank)
    (by decide +kernel)
  refine ⟨s, h1, hlog, fun cs => ?_⟩
  obtain ⟨us, s', hus, -⟩ := requests_never_die h1 hlog (Env.scarred fun _ => true) cs
  exact ⟨us, s', hus⟩

end ScsiSwap
