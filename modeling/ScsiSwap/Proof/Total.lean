import ScsiSwap.Proof.Device

/-!
# Code that does not die

The functions of the core that never touch the data of a mapping through a pointer that may be null
always finish, whatever the device and the allocator do (`Total`): the flushes of the head and of the
table, the search for a spare block, and the search for a head.
-/

namespace ScsiSwap

open StateOption

variable {E : Env}

/-! ## Commands -/

theorem kmalloc_total : Total (kmalloc E) := ⟨fun _ => ⟨_, _, rfl⟩⟩

theorem hdReadSector_total (r sector n : ℕ) : Total (hdReadSector E r sector n) :=
  ⟨fun _ => ⟨_, _, hdReadSector_run ..⟩⟩

theorem hdWriteSector_total (w : Writer) (r sector n : ℕ) (buf : ℕ → Sector) :
    Total (hdWriteSector E w r sector n buf) :=
  ⟨fun _ => ⟨_, _, hdWriteSector_run ..⟩⟩

theorem allocSwapInfoData_total (start n : ℕ) : Total (allocSwapInfoData E start n) := by
  refine kmalloc_total.bind fun _ => .ite ?_ (.pure _)
  exact (hdReadSector_total ..).bind fun _ => .ite (.pure _) (.pure _)

/-! ## Spare blocks -/

theorem swapCheckBlock_total (secStart : ℕ) : Total (swapCheckBlock E secStart) :=
  kmalloc_total.bind fun _ => .ite (hdWriteSector_total ..) (.pure _)

theorem swapAllocLoop_total : ∀ left index, Total (swapAllocLoop E left index) := by
  intro left
  induction left with
  | zero =>
    intro index
    unfold swapAllocLoop
    refine .get_bind fun s => (swapCheckBlock_total _).bind fun _ => .ite ?_ ?_
    · exact (Total.modify _).bind fun _ => .pure _
    · exact (Total.modify _).bind fun _ => .pure _
  | succ left ih =>
    intro index
    unfold swapAllocLoop
    refine .get_bind fun s => (swapCheckBlock_total _).bind fun _ => .ite ?_ ?_
    · exact (Total.modify _).bind fun _ => .pure _
    · refine (Total.modify _).bind fun _ => .get_bind fun s => ?_
      split
      · exact .pure _
      · exact ih _

theorem swapAllocNewBlock_total : Total (swapAllocNewBlock E) := by
  refine .get_bind fun s => ?_
  split
  · exact .pure _
  · exact swapAllocLoop_total _ _

/-! ## The table -/

theorem writeSkip_total (b : Sector) (limit : ℕ) : ∀ fuel sect, Total (writeSkip E b limit fuel sect) := by
  intro fuel
  induction fuel with
  | zero =>
    intro sect
    unfold writeSkip
    exact (hdWriteSector_total ..).bind fun _ => .ite (.pure _) (.pure _)
  | succ fuel ih =>
    intro sect
    unfold writeSkip
    exact (hdWriteSector_total ..).bind fun _ => .ite (.pure _) (ih _)

theorem flushTableSector_total (b : Sector) (sect back : ℕ) : Total (flushTableSector E b sect back) :=
  .get_bind fun _ => (writeSkip_total ..).bind fun _ => (writeSkip_total ..).bind fun _ => .pure _

theorem flushTableLoop_total : ∀ (ps : List ℕ) (i : ℕ) (b : Sector) (sect back : ℕ),
    Total (flushTableLoop E ps i b sect back) := by
  intro ps
  induction ps with
  | nil =>
    intro i b sect back
    unfold flushTableLoop
    exact .ite ((flushTableSector_total ..).bind fun _ => .pure _) (.pure _)
  | cons p ps ih =>
    intro i b sect back
    unfold flushTableLoop
    refine .get_bind fun s => (Total.set _).bind fun _ => .ite ?_ (ih ..)
    exact (flushTableSector_total ..).bind fun _ => ih ..

theorem flushSwapInfoTable_total : Total (flushSwapInfoTable E) :=
  .get_bind fun _ => (flushTableLoop_total ..).bind fun _ => .pure _

theorem calcSwapInfoNum_total : ∀ n start total, Total (calcSwapInfoNum E n start total) := by
  intro n
  induction n with
  | zero =>
    intro start total
    exact .pure _
  | succ n ih =>
    intro start total
    unfold calcSwapInfoNum
    exact (hdReadSector_total ..).bind fun _ => .ite (.ite (.pure _) (ih ..)) (ih ..)

/-! ## The head -/

theorem flushSwapHead_total : Total (flushSwapHead E) :=
  .get_bind fun _ => (Total.set _).bind fun _ => (hdWriteSector_total ..).bind fun _ => hdWriteSector_total ..

theorem swapCheckBlockBySector_total (secStart : ℕ) : ∀ n i, Total (swapCheckBlockBySector E secStart n i) := by
  intro n
  induction n with
  | zero =>
    intro i
    exact .pure _
  | succ n ih =>
    intro i
    unfold swapCheckBlockBySector
    exact (hdWriteSector_total ..).bind fun _ => .ite (ih _) (.pure _)

theorem swapCreateNewHead'_total : Total (swapCreateNewHead' E) :=
  (Total.modify _).bind fun _ => flushSwapHead_total

theorem markInvalid_total (badIdx : ℕ) : Total (markInvalid E badIdx) :=
  .ite ((Total.modify _).bind fun _ => swapCreateNewHead'_total.bind fun _ => .pure _) (.pure _)

theorem createHeadLoop_total : ∀ n, Total (createHeadLoop E n) := by
  intro n
  induction n with
  | zero => exact .pure _
  | succ n ih =>
    unfold createHeadLoop
    refine .get_bind fun s => (swapCheckBlockBySector_total ..).bind fun o => ?_
    split
    · exact (Total.modify _).bind fun _ => swapCreateNewHead'_total
    · exact (markInvalid_total _).bind fun _ => (Total.modify _).bind fun _ => ih

theorem swapCreateNewHead_total : Total (swapCreateNewHead E) :=
  (Total.modify _).bind fun _ => createHeadLoop_total _

theorem swapGetHeadState_total (sector : ℕ) (old : SwapHead) : Total (swapGetHeadState E sector old) :=
  (hdReadSector_total ..).bind fun _ => .pure _

theorem repairBackup_total (secStart : ℕ) (head : SwapHead) (st : HeadState) :
    Total (repairBackup E secStart head st) :=
  .ite ((hdWriteSector_total ..).bind fun _ => .pure _) (.pure _)

theorem initHeadLoop_total : ∀ n secStart, Total (initHeadLoop E n secStart) := by
  intro n
  induction n with
  | zero =>
    intro secStart
    exact (Total.modify _).bind fun _ => .pure _
  | succ n ih =>
    intro secStart
    unfold initHeadLoop
    refine .get_bind fun s => (swapGetHeadState_total ..).bind fun _ => (Total.modify _).bind
      fun _ => .ite (ih _) ?_
    refine (swapGetHeadState_total ..).bind fun _ => .ite (ih _) (.ite ?_ (.ite ?_ ?_))
    · exact (repairBackup_total ..).bind fun _ => (Total.modify _).bind fun _ => .pure _
    · exact (Total.modify _).bind fun _ => (hdWriteSector_total ..).bind fun _ =>
        (Total.modify _).bind fun _ => .pure _
    · exact swapCreateNewHead_total.bind fun _ => .ite (.pure _) ((Total.modify _).bind fun _ => .pure _)

end ScsiSwap
