import ScsiSwap.Lib.Oracle
import ScsiSwap.Proof.Device

/-!
# A start depends on the answers it gets

Two environments that agree while a start lasts lead to the same start. This is what makes it possible to put a
pattern of failures together from one for the search for the head and one for the table (`Env.switch`).

* one lemma a function: it is the same for both environments;
* `initSwapHead_switch`, `initSwapInfo_switch`: the two parts of a start, put together.
-/

namespace ScsiSwap

open StateOption

variable {E F : Env}

/-- Commands and allocations at the moment `t` have the same outcome. -/
structure Env.SameAt (E F : Env) (t : ℕ) : Prop where
  read : E.read t = F.read t
  write : E.write t = F.write t
  kmalloc : E.kmalloc t = F.kmalloc t

/-- From `s` on, `y` does with `F` what `x` does with `E`. -/
abbrev Tracks (E F : Env) (s : World) {α : Type} (x y : SwapM α) : Prop := Follows World.tick (E.SameAt F) s x y

/-! ## Commands and flushes -/

theorem hdReadSector_tracks (r sector n : ℕ) (s : World) :
    Tracks E F s (hdReadSector E r sector n) (hdReadSector F r sector n) := by
  have htick : ∀ a s', (hdReadSector E r sector n).run s = some (a, s') → s'.tick = s.tick + 1 := by
    intro a s' h
    rw [hdReadSector_run] at h
    obtain ⟨-, rfl⟩ := Prod.mk.inj (Option.some.inj h)
    rfl
  refine ⟨fun a s' h => by rw [htick a s' h]; omega, fun a s' h hsame => ?_⟩
  have hnow := hsame s.tick le_rfl (by rw [htick a s' h]; omega)
  rw [← h, hdReadSector_run, hdReadSector_run, hnow.read]

theorem hdWriteSector_tracks (w : Writer) (r sector n : ℕ) (buf : ℕ → Sector) (s : World) :
    Tracks E F s (hdWriteSector E w r sector n buf) (hdWriteSector F w r sector n buf) := by
  have htick : ∀ a s', (hdWriteSector E w r sector n buf).run s = some (a, s') → s'.tick = s.tick + 1 := by
    intro a s' h
    rw [hdWriteSector_run] at h
    obtain ⟨-, rfl⟩ := Prod.mk.inj (Option.some.inj h)
    rfl
  refine ⟨fun a s' h => by rw [htick a s' h]; omega, fun a s' h hsame => ?_⟩
  have hnow := hsame s.tick le_rfl (by rw [htick a s' h]; omega)
  rw [← h, hdWriteSector_run, hdWriteSector_run, hnow.write]

theorem kmalloc_tracks (s : World) : Tracks E F s (kmalloc E) (kmalloc F) := by
  have htick : ∀ a s', (kmalloc E).run s = some (a, s') → s'.tick = s.tick + 1 := by
    intro a s' h
    obtain ⟨-, rfl⟩ := run_det (kmalloc_run E s) h
    rfl
  refine ⟨fun a s' h => by rw [htick a s' h]; omega, fun a s' h hsame => ?_⟩
  have hnow := hsame s.tick le_rfl (by rw [htick a s' h]; omega)
  rw [← h, kmalloc_run, kmalloc_run, hnow.kmalloc]

theorem flushSwapInfoData_tracks (p : ℕ) (s : World) :
    Tracks E F s (flushSwapInfoData E p) (flushSwapInfoData F p) := by
  refine .get_bind ?_
  dsimp only
  split
  · exact .pure _
  · exact hdWriteSector_tracks ..

theorem writeSkip_tracks (buffer : Sector) (limit : ℕ) : ∀ fuel sect s,
    Tracks E F s (writeSkip E buffer limit fuel sect) (writeSkip F buffer limit fuel sect) := by
  intro fuel
  induction fuel with
  | zero => exact fun sect s => (hdWriteSector_tracks ..).bind fun _ _ => .ite (.pure _) (.pure _)
  | succ fuel ih => exact fun sect s => (hdWriteSector_tracks ..).bind fun _ _ => .ite (.pure _) (ih ..)

theorem flushTableSector_tracks (buffer : Sector) (sect back : ℕ) (s : World) :
    Tracks E F s (flushTableSector E buffer sect back) (flushTableSector F buffer sect back) :=
  .get_bind ((writeSkip_tracks ..).bind fun _ _ => (writeSkip_tracks ..).bind fun _ _ => .pure _)

theorem flushTableLoop_tracks : ∀ (ps : List ℕ) (i : ℕ) (buffer : Sector) (sect back : ℕ) (s : World),
    Tracks E F s (flushTableLoop E ps i buffer sect back) (flushTableLoop F ps i buffer sect back) := by
  intro ps
  induction ps with
  | nil =>
    intro i buffer sect back s
    exact .ite ((flushTableSector_tracks ..).bind fun _ _ => .pure _) (.pure _)
  | cons p ps ih =>
    intro i buffer sect back s
    unfold flushTableLoop
    refine .get_bind (.set_bind rfl (.ite ?_ (ih ..)))
    exact (flushTableSector_tracks ..).bind fun _ _ => ih ..

theorem flushSwapInfoTable_tracks (s : World) : Tracks E F s (flushSwapInfoTable E) (flushSwapInfoTable F) :=
  .get_bind ((flushTableLoop_tracks ..).bind fun _ _ => .pure _)

theorem flushSwapHead_tracks (s : World) : Tracks E F s (flushSwapHead E) (flushSwapHead F) :=
  .get_bind (.set_bind rfl ((hdWriteSector_tracks ..).bind fun _ _ => hdWriteSector_tracks ..))

/-! ## Spare blocks -/

theorem swapCheckBlock_tracks (secStart : ℕ) (s : World) :
    Tracks E F s (swapCheckBlock E secStart) (swapCheckBlock F secStart) :=
  (kmalloc_tracks s).bind fun _ _ => .ite (hdWriteSector_tracks ..) (.pure _)

theorem swapAllocLoop_tracks : ∀ left index s,
    Tracks E F s (swapAllocLoop E left index) (swapAllocLoop F left index) := by
  intro left
  induction left with
  | zero =>
    intro index s
    refine .get_bind ((swapCheckBlock_tracks ..).bind fun _ _ => .ite ?_ ?_)
    · exact (Follows.modify rfl).bind fun _ _ => .pure _
    · exact (Follows.modify rfl).bind fun _ _ => .pure _
  | succ left ih =>
    intro index s
    refine .get_bind ((swapCheckBlock_tracks ..).bind fun _ _ => .ite ?_ ?_)
    · exact (Follows.modify rfl).bind fun _ _ => .pure _
    · refine (Follows.modify rfl).bind fun _ _ => .get_bind ?_
      split
      · exact .pure _
      · exact ih ..

theorem swapAllocNewBlock_tracks (s : World) : Tracks E F s (swapAllocNewBlock E) (swapAllocNewBlock F) := by
  refine .get_bind ?_
  split
  · exact .pure _
  · exact swapAllocLoop_tracks ..

theorem rereadSector_tracks (p i : ℕ) (s : World) : Tracks E F s (rereadSector E p i) (rereadSector F p i) := by
  refine .get_bind ?_
  split
  · exact .of_eq fun _ _ h => absurd h (by simp [oops, StateT.run])
  · exact (hdReadSector_tracks ..).bind fun _ _ => .modify rfl

theorem swapRecreate_tracks (p : ℕ) (s : World) : Tracks E F s (swapRecreate E p) (swapRecreate F p) := by
  refine .get_bind (.ite (.pure _) ((swapAllocNewBlock_tracks s).bind fun o _ => ?_))
  split
  · exact .pure _
  refine (Follows.forM (rereadSector_tracks p) _ _).bind fun _ _ => (Follows.modify rfl).bind fun _ _ => ?_
  refine Follows.bind ?_ fun ok _ => .ite (.pure _) ((Follows.modify rfl).bind fun _ _ => .pure _)
  refine (flushSwapInfoData_tracks ..).bind fun _ _ => .ite ?_ (.pure _)
  exact (flushSwapInfoTable_tracks _).bind fun _ _ => .ite (flushSwapHead_tracks _) (.pure _)

/-! ## The head -/

theorem swapGetHeadState_tracks (sector : ℕ) (old : SwapHead) (s : World) :
    Tracks E F s (swapGetHeadState E sector old) (swapGetHeadState F sector old) :=
  (hdReadSector_tracks ..).bind fun _ _ => .pure _

theorem swapCheckBlockBySector_tracks (secStart : ℕ) : ∀ n i s,
    Tracks E F s (swapCheckBlockBySector E secStart n i) (swapCheckBlockBySector F secStart n i) := by
  intro n
  induction n with
  | zero => exact fun _ _ => .pure _
  | succ n ih => exact fun i s => (hdWriteSector_tracks ..).bind fun _ _ => .ite (ih ..) (.pure _)

theorem swapCreateNewHead'_tracks (s : World) : Tracks E F s (swapCreateNewHead' E) (swapCreateNewHead' F) :=
  (Follows.modify rfl).bind fun _ _ => flushSwapHead_tracks _

theorem markInvalid_tracks (badIdx : ℕ) (s : World) :
    Tracks E F s (markInvalid E badIdx) (markInvalid F badIdx) :=
  .ite ((Follows.modify rfl).bind fun _ _ => (swapCreateNewHead'_tracks _).bind fun _ _ => .pure _) (.pure _)

theorem createHeadLoop_tracks : ∀ n s, Tracks E F s (createHeadLoop E n) (createHeadLoop F n) := by
  intro n
  induction n with
  | zero => exact fun _ => .pure _
  | succ n ih =>
    intro s
    refine .get_bind ((swapCheckBlockBySector_tracks ..).bind fun o _ => ?_)
    split
    · exact (Follows.modify rfl).bind fun _ _ => swapCreateNewHead'_tracks _
    · exact (markInvalid_tracks ..).bind fun _ _ => (Follows.modify rfl).bind fun _ _ => ih _

theorem repairBackup_tracks (secStart : ℕ) (head : SwapHead) (st : HeadState) (s : World) :
    Tracks E F s (repairBackup E secStart head st) (repairBackup F secStart head st) :=
  .ite ((hdWriteSector_tracks ..).bind fun _ _ => .pure _) (.pure _)

theorem initHeadLoop_tracks : ∀ n secStart s,
    Tracks E F s (initHeadLoop E n secStart) (initHeadLoop F n secStart) := by
  intro n
  induction n with
  | zero => exact fun secStart s => (Follows.modify rfl).bind fun _ _ => .pure _
  | succ n ih =>
    intro secStart s
    refine .get_bind ((swapGetHeadState_tracks ..).bind fun a _ => (Follows.modify rfl).bind
      fun _ _ => .ite (ih ..) ?_)
    refine (swapGetHeadState_tracks ..).bind fun b _ => .ite (ih ..) (.ite ?_ (.ite ?_ ?_))
    · exact (repairBackup_tracks ..).bind fun _ _ => (Follows.modify rfl).bind fun _ _ => .pure _
    · refine (Follows.modify rfl).bind fun _ _ => (hdWriteSector_tracks ..).bind fun _ _ => ?_
      exact (Follows.modify rfl).bind fun _ _ => .pure _
    · refine Follows.bind ((Follows.modify rfl).bind fun _ _ => createHeadLoop_tracks ..)
        fun _ _ => .ite (.pure _) ?_
      exact (Follows.modify rfl).bind fun _ _ => .pure _

/-! ## The table -/

theorem calcSwapInfoNum_tracks : ∀ n start total s,
    Tracks E F s (calcSwapInfoNum E n start total) (calcSwapInfoNum F n start total) := by
  intro n
  induction n with
  | zero => exact fun _ _ _ => .pure _
  | succ n ih =>
    intro start total s
    exact (hdReadSector_tracks ..).bind fun _ _ => .ite (.ite (.pure _) (ih ..)) (ih ..)

theorem allocSwapInfoData_tracks (start num : ℕ) (s : World) :
    Tracks E F s (allocSwapInfoData E start num) (allocSwapInfoData F start num) := by
  refine (kmalloc_tracks s).bind fun _ _ => .ite ?_ (.pure _)
  exact (hdReadSector_tracks ..).bind fun _ _ => .ite (.pure _) (.pure _)

theorem loadSlot_tracks (t : SwapTable) (s : World) : Tracks E F s (loadSlot E t) (loadSlot F t) := by
  refine (kmalloc_tracks s).bind fun _ _ => .ite (.get_bind (.set_bind rfl ?_)) (.pure _)
  refine .ite (.pure _) (.ite (.pure _) (.ite (.pure _) ((allocSwapInfoData_tracks ..).bind fun data _ => ?_)))
  refine (Follows.modify rfl).bind fun _ _ => Follows.bind (.ite (.pure _) (swapRecreate_tracks ..)) fun _ _ => ?_
  exact .ite (.get_bind (.set_bind rfl (.pure _))) (.pure _)

theorem loadSlots_tracks : ∀ (js : List (Fin 8)) (buffer : Sector) (s : World),
    Tracks E F s (loadSlots E js buffer) (loadSlots F js buffer) := by
  intro js
  induction js with
  | nil => exact fun _ _ => .pure _
  | cons j js ih => exact fun buffer s => (loadSlot_tracks ..).bind fun _ _ => .ite (ih ..) (.pure _)

theorem loadTable_tracks (sync : TableSync) (limit : ℕ) : ∀ n start pos s,
    Tracks E F s (loadTable E sync limit n start pos) (loadTable F sync limit n start pos) := by
  intro n
  induction n with
  | zero => exact fun _ _ _ => .pure _
  | succ n ih =>
    intro start pos s
    refine (hdReadSector_tracks ..).bind fun _ _ => .ite ?_ (ih ..)
    refine (loadSlots_tracks ..).bind fun _ _ =>
      .ite (.pure _) (Follows.bind ?_ fun _ _ => .ite (.pure _) (ih ..))
    exact .ite (.pure _) (writeSkip_tracks ..)

theorem initSwapInfo_tracks (s : World) : Tracks E F s (initSwapInfo E) (initSwapInfo F) := by
  refine (Follows.modify rfl).bind fun _ _ => .get_bind ((calcSwapInfoNum_tracks ..).bind fun _ _ => ?_)
  refine (calcSwapInfoNum_tracks ..).bind fun _ _ => .ite (loadTable_tracks ..) (.ite (loadTable_tracks ..) ?_)
  exact .ite (.pure _) (loadTable_tracks ..)

/-! ## One environment after another -/

/-- `E` before the moment `τ`, and `F` from then on. -/
def Env.switch (τ : ℕ) (E F : Env) : Env :=
  { F with
    read := fun t => if t < τ then E.read t else F.read t
    write := fun t => if t < τ then E.write t else F.write t
    kmalloc := fun t => if t < τ then E.kmalloc t else F.kmalloc t }

theorem switch_before {τ t : ℕ} (h : t < τ) : E.SameAt (E.switch τ F) t :=
  ⟨(if_pos h).symm, (if_pos h).symm, (if_pos h).symm⟩

theorem switch_after {τ t : ℕ} (h : τ ≤ t) : F.SameAt (E.switch τ F) t :=
  ⟨(if_neg h.not_gt).symm, (if_neg h.not_gt).symm, (if_neg h.not_gt).symm⟩

/-- The search for the head, in the first environment. -/
theorem initSwapHead_switch {start : ℕ} {a : Bool} {s s' : World}
    (h : (initSwapHead E start).run s = some (a, s')) :
    (initSwapHead (E.switch s'.tick F) start).run s = some (a, s') :=
  (initHeadLoop_tracks _ _ _).run a s' h fun _ _ ht => switch_before ht

/-- The table, in the second. -/
theorem initSwapInfo_switch {a : Bool} {s s' : World} (h : (initSwapInfo F).run s = some (a, s')) :
    (initSwapInfo (E.switch s.tick F)).run s = some (a, s') :=
  (initSwapInfo_tracks _).run a s' h fun _ ht _ => switch_after ht

end ScsiSwap
