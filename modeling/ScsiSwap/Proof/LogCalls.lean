import ScsiSwap.Proof.Burst
import ScsiSwap.Proof.LogRing
import ScsiSwap.Proof.Show
import ScsiSwap.Proof.Total

/-!
# Calls on the log

* `push_run`: an entry goes into the ring, whatever becomes of the writes;
* `Cspring.Safe`: the rings whose slots are all found in the buffer, `LogCall.run_safe`: they stay so;
* `loaded_ring_iff`: the heads on a disk that give such a ring;
* `LogEntry.item_valid_iff`: the checksum of an item is taken too early;
* `items_valid_iff`: so it is right only for entries it does not see.
-/

namespace ScsiSwap

open StateOption ByteCodec ShiftRegister

variable {E : Env} {s s' : World} {r r' : Cspring LogItem} {e : LogEntry} {last : Option LogItem}

/-! ## One entry -/

/-- An item as it is when its checksum is taken, by the clock and the last item. -/
def LogItem.begun (time : BitVec 32) (last : Option LogItem) : LogItem :=
  { crc := 0, time := time, secSrc := 0, secDst := 0, secCount := 0, type := 0, result := 0
    rebootCount := (last.map (·.rebootCount)).getD 0, fixCount := (last.map (·.fixCount)).getD 0
    currCount := (last.map (·.currCount)).getD 0 + 1, reserved := 0 }

/-- The item made of an entry. -/
def LogEntry.item (e : LogEntry) (time : BitVec 32) (last : Option LogItem) : LogItem :=
  { LogItem.begun time last with
    crc := (LogItem.begun time last).crcItem, secSrc := e.src, secDst := e.dst, secCount :=
      e.count, type := e.type
    result := e.result }

theorem scsiSwapLogItemInit_item (h : (scsiSwapLogLast r).run s = some (last, s)) :
    (scsiSwapLogItemInit E r e.type e.result e.src e.dst e.count).run s =
      some (e.item (E.clock s.tick) last, s) := by
  unfold scsiSwapLogItemInit
  rw [run_get_bind]
  exact run_bind_of h

theorem scsiSwapLogUpdateData_run {x : LogItem} {slot : ℕ} (hpush : r.push x = some (slot, r')) :
    ∃ b s', (scsiSwapLogUpdateData E r x).run s = some (b, s') ∧ s'.log.ring = some r' := by
  obtain ⟨b, s', hw⟩ := (hdWriteSector_total (E := E) .log 0 (s.log.sectorData + slot * 32 / 512) 1
    fun _ i => ringByte r' (slot * 32 / 512 + i)).run { s with log := { s.log with ring := some r' } }
  refine ⟨b, s', ?_, by rw [(hdWriteSector_calm hw).log]⟩
  unfold scsiSwapLogUpdateData
  rw [hpush]
  dsimp only
  rw [run_modify_bind, run_get_bind]
  exact hw

theorem scsiSwapLogUpdateHead_run (hring : s.log.ring = some r) :
    ∃ b s', (scsiSwapLogUpdateHead E).run s = some (b, s') ∧ s'.log.ring = some r := by
  unfold scsiSwapLogUpdateHead
  rw [run_get_bind, hring]
  dsimp only
  rw [run_set_bind]
  obtain ⟨b, s', hw⟩ := (hdWriteSector_total (E := E) .log 0 s.log.sectorHead 1 _).run _
  exact ⟨b, s', hw, by rw [(hdWriteSector_calm hw).log, hring]⟩

/-- **One entry more**: it is in the ring, whether or not it was written to the disk. -/
theorem push_run {slot : ℕ} (hring : s.log.ring = some r) (hlast : (scsiSwapLogLast r).run s = some (last, s))
    (hpush : r.push (e.item (E.clock s.tick) last) = some (slot, r')) :
    ∃ b s', (e.push E).run s = some (b, s') ∧ s'.log.ring = some r' := by
  obtain ⟨ok, s₁, h1, hr1⟩ := scsiSwapLogUpdateData_run (E := E) (s := s) hpush
  unfold LogEntry.push scsiSwapLogPush
  rw [run_get_bind, hring]
  dsimp only
  rw [run_bind_of (scsiSwapLogItemInit_item hlast), run_bind_of h1]
  cases ok with
  | false => exact ⟨false, s₁, rfl, hr1⟩
  | true => exact scsiSwapLogUpdateHead_run hr1

/-! ## Rings that stay in their buffer -/

/-- A ring of the log all of whose items, and the next one, have their place in the buffer. -/
structure Cspring.Safe (r : Cspring LogItem) : Prop extends r.Sized 512 where
  next_nonneg : 0 ≤ r.itemNext
  next_lt : r.itemNext < 512
  num_nonneg : 0 ≤ r.itemNum
  num_lt : r.itemNum < 2 ^ 16
  pop : r.itemNum ≤ r.itemNext + 512 ∨ (r.itemNum - r.itemNext) % 512 = 0

namespace Cspring

/-- The numbers involved are far from the ends of an `int`. -/
theorem popIndex_small (h : r.Sized 512) (h1 : 0 ≤ r.itemNext ∧ r.itemNext < 2 ^ 16)
    (h2 : 0 ≤ r.itemNum ∧ r.itemNum < 2 ^ 16) : r.popIndex = (r.itemNext - r.itemNum + 512).tmod 512 := by
  unfold popIndex
  rw [h.cap, show s32 (s32 (r.itemNext - r.itemNum) + (512 : ℕ)) =
    r.itemNext - r.itemNum + 512 by unfold s32; omega]
  rfl

theorem Safe.popIndex (h : r.Safe) : 0 ≤ r.popIndex ∧ r.popIndex < 512 := by
  have h1 := h.next_nonneg
  have h2 := h.next_lt
  have h3 := h.num_nonneg
  have h4 := h.num_lt
  rw [popIndex_small h.toSized ⟨h1, by omega⟩ ⟨h3, h4⟩]
  rcases h.pop with hle | hdiv
  · rw [Int.tmod_eq_emod_of_nonneg (by omega)]
    omega
  · rw [Int.tmod_eq_zero_of_dvd (by omega)]
    omega

theorem Safe.peek (h : r.Safe) {i : ℤ} (h0 : 0 ≤ i) (h1 : i < r.itemNum) : ∃ x, r.peek i = some x := by
  obtain ⟨hp0, hp1⟩ := h.popIndex
  have h4 := h.num_lt
  have hindex : (s32 (r.popIndex + i)).tmod r.itemCap = (r.popIndex + i) % 512 := by
    rw [h.cap, show s32 (r.popIndex + i) = r.popIndex + i by unfold s32; omega]
    exact Int.tmod_eq_emod_of_nonneg (by omega)
  unfold Cspring.peek
  dsimp only
  rw [hindex, if_pos (h.inBuffer_iff.2 (by omega))]
  exact ⟨_, rfl⟩

theorem Safe.push (h : r.Safe) (x : LogItem) : ∃ slot r', r.push x = some (slot, r') ∧ r'.Safe := by
  have h1 := h.next_nonneg
  have h2 := h.next_lt
  have h3 := h.num_nonneg
  have h4 := h.num_lt
  obtain ⟨r', hp, hs, hnum, hnext, -⟩ := h.toSized.push ⟨h1, h2⟩ ⟨h3, by omega⟩ x
  refine ⟨_, r', hp, hs, ?_, ?_, by omega, by omega, Or.inl ?_⟩
  · rw [hnext]
    split <;> omega
  · rw [hnext]
    split <;> omega
  · rw [hnum, hnext]
    split <;> omega

/-- The remainder of a negative number is no slot. -/
theorem Sized.peek_before (h : r.Sized 512) (hlow : -512 < r.popIndex) (hneg : r.popIndex < 0) :
    r.peek 0 = none := by
  have hindex : (s32 (r.popIndex + 0)).tmod r.itemCap = r.popIndex := by
    rw [h.cap, show s32 (r.popIndex + 0) = r.popIndex by unfold s32; omega, ← neg_inj, ← Int.neg_tmod]
    exact Int.tmod_eq_of_lt (by omega) (by omega)
  unfold Cspring.peek
  dsimp only
  rw [hindex, if_neg fun hin => ?_]
  have := h.inBuffer_iff.1 hin
  omega

theorem exists_map_some {α : Type} : ∀ {l : List (Option α)}, (∀ o ∈ l, ∃ x, o = some x) →
    ∃ xs : List α, l = xs.map some := by
  intro l
  induction l with
  | nil => exact fun _ => ⟨[], rfl⟩
  | cons o l ih =>
    intro h
    obtain ⟨x, rfl⟩ := h o List.mem_cons_self
    obtain ⟨xs, rfl⟩ := ih fun o ho => h o (List.mem_cons_of_mem _ ho)
    exact ⟨x :: xs, rfl⟩

theorem Safe.items (h : r.Safe) : ∃ xs : List LogItem, r.items = xs.map some := by
  refine exists_map_some fun o ho => ?_
  obtain ⟨i, hi, rfl⟩ := List.mem_map.1 ho
  rw [List.mem_range] at hi
  exact h.peek (by omega) (by omega)

end Cspring

theorem scsiSwapLogLast_safe (h : r.Safe) : ∃ last, (scsiSwapLogLast r).run s = some (last, s) := by
  have h3 := h.num_nonneg
  unfold scsiSwapLogLast
  by_cases hn : r.itemNum = 0
  · rw [if_pos hn]
    exact ⟨none, rfl⟩
  · obtain ⟨x, hx⟩ := h.peek (i := r.itemNum - 1) (by omega) (by omega)
    rw [if_neg hn]
    exact ⟨some x, scsiSwapLogPeek_some (by omega) (by omega) hx⟩

/-! ## Runs of calls -/

/-- A call of `scsi_swap_log_push` or `scsi_swap_log_show`. -/
inductive LogCall where
  | push (e : LogEntry)
  | show (page : PageMem)

/-- Serving a call. It dies where a slot is not in the buffer. -/
def LogCall.run (E : Env) : LogCall → SwapM Unit
  | .push e => do
    let _ ← e.push E
    return ()
  | .show page => do
    let _ ← scsiSwapLogShow page
    return ()

/-- The log has a ring that is safe. -/
def World.LogSafe (s : World) : Prop := ∃ r, s.log.ring = some r ∧ r.Safe

/-- **A call on a safe ring** finds all slots, and leaves a safe ring. -/
theorem LogCall.run_safe (c : LogCall) (h : s.LogSafe) : ∃ s', (c.run E).run s = some ((), s') ∧ s'.LogSafe := by
  obtain ⟨r, hring, hr⟩ := h
  cases c with
  | push e =>
    obtain ⟨last, hlast⟩ := scsiSwapLogLast_safe (s := s) hr
    obtain ⟨slot, r', hpush, hr'⟩ := hr.push (e.item (E.clock s.tick) last)
    obtain ⟨b, s', hrun, hring'⟩ := push_run hring hlast hpush
    exact ⟨s', run_bind_of hrun, r', hring', hr'⟩
  | «show» page =>
    obtain ⟨xs, hxs⟩ := hr.items
    exact ⟨s, run_bind_of (scsiSwapLogShow_run hring hxs page), r, hring, hr⟩

theorem runAll_safe : ∀ {cs : List LogCall} {s : World}, s.LogSafe →
    (runAll (LogCall.run E) cs).run s ≠ none := by
  intro cs
  induction cs with
  | nil => exact fun _ => by simp [runAll]
  | cons c cs ih =>
    intro s h
    obtain ⟨s₁, h1, hs₁⟩ := c.run_safe (E := E) h
    unfold runAll
    rw [run_bind_of h1]
    have hrest := ih hs₁
    obtain ⟨⟨rs, s₂⟩, h2⟩ := Option.ne_none_iff_exists'.1 hrest
    rw [run_bind_of h2]
    simp

theorem push_dies (hring : s.log.ring = some r) (hnext : r.inBuffer r.itemNext = false) :
    (e.push E).run s = none := by
  unfold LogEntry.push scsiSwapLogPush
  rw [run_get_bind, hring]
  dsimp only
  cases hitem : (scsiSwapLogItemInit E r e.type e.result e.src e.dst e.count).run s with
  | none => exact run_bind_eq_none.2 (Or.inl hitem)
  | some x =>
    obtain ⟨item, s₁⟩ := x
    rw [run_bind_of hitem]
    refine run_bind_eq_none.2 (Or.inl ?_)
    unfold scsiSwapLogUpdateData Cspring.push
    rw [if_neg (by rw [hnext]; simp)]
    rfl

theorem show_dies {page : PageMem} (hring : s.log.ring = some r) (hnum : 0 < r.itemNum)
    (hpeek : r.peek 0 = none) : (scsiSwapLogShow page).run s = none := by
  unfold scsiSwapLogShow
  rw [run_get_bind, hring]
  refine run_bind_eq_none.2 (Or.inl ?_)
  unfold scsiSwapLogShowLoop
  refine run_bind_eq_none.2 (Or.inl ?_)
  unfold scsiSwapLogPeek
  rw [if_neg (by omega), hpeek]
  rfl

/-! ## Heads from the disk -/

/-- A load fills the buffer, and leaves the rest of the ring to `scsi_swap_log_init`. -/
theorem scsiSwapLogLoad_ring {b : Bool} (hring : s.log.ring = some r)
    (h : (scsiSwapLogLoad E r).run s = some (b, s')) :
    ∃ items, s'.log.ring = some { r with buffer := items } := by
  unfold scsiSwapLogLoad at h
  rw [run_get_bind] at h
  obtain ⟨⟨ok, buf⟩, s₁, h1, h2⟩ := run_bind_iff.1 h
  have hr₁ : s₁.log.ring = some r := by rw [(hdReadSector_calm h1).1.log, hring]
  dsimp only at h2
  cases ok with
  | false =>
    obtain ⟨-, rfl⟩ := run_pure_iff.1 h2
    exact ⟨r.buffer, hr₁⟩
  | true =>
    rw [if_pos rfl, run_modify_bind] at h2
    split at h2
    · obtain ⟨a, s₂, -, h3⟩ := run_bind_iff.1 h2
      rw [run_modify_bind] at h3
      obtain ⟨-, rfl⟩ := run_pure_iff.1 h3
      exact ⟨_, rfl⟩
    · obtain ⟨-, rfl⟩ := run_pure_iff.1 h2
      exact ⟨r.buffer, hr₁⟩

/-- **The ring after an initialisation** has the numbers of the head, if that was accepted. -/
theorem scsiSwapLogInit_numbers {b : Bool} {H D : ℕ} (h : (scsiSwapLogInit E H D).run s = some (b, s'))
    (hring : s'.log.ring = some r) : r.Sized 512 ∧
      (b = true → r.itemNum = s'.log.head.itemNum.toNat ∧ r.itemNext = s'.log.head.itemNext.toNat) ∧
      (b = false → r.itemNum = 0 ∧ r.itemNext = 0) := by
  unfold scsiSwapLogInit at h
  obtain ⟨a, s₁, -, h2⟩ := run_bind_iff.1 h
  obtain ⟨ok, s₂, -, h4⟩ := run_bind_iff.1 h2
  cases ok with
  | false =>
    rw [if_neg (by simp), run_modify_bind] at h4
    obtain ⟨-, rfl⟩ := run_pure_iff.1 h4
    exact absurd hring (by simp)
  | true =>
    rw [if_pos rfl, run_modify_bind] at h4
    obtain ⟨ok, s₃, h5, h6⟩ := run_bind_iff.1 h4
    obtain ⟨items, hr₃⟩ := scsiSwapLogLoad_ring rfl h5
    cases ok with
    | false =>
      obtain ⟨rfl, rfl⟩ := run_pure_iff.1 h6
      obtain rfl := Option.some.inj (hr₃.symm.trans hring)
      exact ⟨⟨rfl, rfl, by decide, by decide⟩, by simp, fun _ => ⟨rfl, rfl⟩⟩
    | true =>
      rw [if_pos rfl, run_modify_bind] at h6
      obtain ⟨rfl, rfl⟩ := run_pure_iff.1 h6
      dsimp only at hring
      rw [hr₃, Option.map_some] at hring
      obtain rfl := Option.some.inj hring
      exact ⟨⟨rfl, rfl, by decide, by decide⟩, fun _ => ⟨rfl, rfl⟩, by simp⟩

/-- The numbers in a head that fit a ring of 512 items: the next place exists, and counting back from it does
not lead to a place before the first one. -/
def LogHead.Fits (h : LogHead) : Prop :=
  h.itemNext.toNat < 512 ∧ (h.itemNum.toNat ≤ h.itemNext.toNat + 512 ∨ h.itemNum.toNat % 512 = h.itemNext.toNat)

/-- **A log head accepted from disk keeps the ring in bounds exactly if its numbers fit.** After
`scsi_swap_log_init`, no sequence of pushes and shows uses a slot outside of the buffer, if the head was
accepted and `item_next` is below the capacity and `item_num` does not exceed it by too much, and always if the
head was not accepted. -/
theorem loaded_ring_iff {E₀ : Env} {b : Bool} {H D : ℕ} {w : World}
    (hinit : (scsiSwapLogInit E₀ H D).run w = some (b, s)) (hring : s.log.ring = some r) :
    (∀ E cs, (runAll (LogCall.run E) cs).run s ≠ none) ↔ (b = true → s.log.head.Fits) := by
  obtain ⟨hsized, htrue, hfalse⟩ := scsiSwapLogInit_numbers hinit hring
  have h1 := s.log.head.itemNum.isLt
  have h2 := s.log.head.itemNext.isLt
  constructor
  · rintro hall rfl
    obtain ⟨hnum, hnext⟩ := htrue rfl
    unfold LogHead.Fits
    by_contra hbad
    by_cases hlt : s.log.head.itemNext.toNat < 512
    · -- the oldest item is looked for before the first slot
      refine hall E₀ [.show fun _ => ' '] ?_
      refine run_bind_eq_none.2 (Or.inl (run_bind_eq_none.2 (Or.inl ?_)))
      refine show_dies hring (by omega) ?_
      have hpop : r.popIndex < 0 := by
        rw [Cspring.popIndex_small hsized (by omega) (by omega), ← neg_pos, ← Int.neg_tmod,
          Int.tmod_eq_emod_of_nonneg (by omega)]
        omega
      have hlow : -512 < r.popIndex := by
        rw [Cspring.popIndex_small hsized (by omega) (by omega)]
        exact Int.lt_tmod_of_pos _ (by decide)
      exact hsized.peek_before hlow hpop
    · -- the next item goes behind the last slot
      refine hall E₀ [.push ⟨0, 0, 0, 0, 0⟩] ?_
      refine run_bind_eq_none.2 (Or.inl (run_bind_eq_none.2 (Or.inl ?_)))
      refine push_dies hring (Bool.eq_false_iff.2 fun hin => ?_)
      have := hsized.inBuffer_iff.1 hin
      omega
  · intro hfits E cs
    refine runAll_safe ⟨r, hring, ?_⟩
    cases b with
    | false =>
      obtain ⟨hnum, hnext⟩ := hfalse rfl
      exact ⟨hsized, by omega, by omega, by omega, by omega, by omega⟩
    | true =>
      obtain ⟨hnum, hnext⟩ := htrue rfl
      obtain ⟨hlt, hpop⟩ := hfits rfl
      exact ⟨hsized, by omega, by omega, by omega, by omega, by omega⟩

/-- A blank disk, but for a log head with these numbers and the right checksum. -/
def World.withLogHead (num next : BitVec 16) : World :=
  let h : LogHead := ⟨0, num, next⟩
  { World.blank with
    disk := fun x => if x = swapLogHeadOffset then { h with crc := h.crcHead : LogHead }.sector else zeroSector }

theorem scsiSwapLogInit_result {w : World} (P : World → Bool)
    (h : ((scsiSwapLogInit E swapLogHeadOffset swapLogDataOffset).run w).map (fun x => (x.1, P x.2)) =
      some (true, true)) :
    ∃ s, (scsiSwapLogInit E swapLogHeadOffset swapLogDataOffset).run w = some (true, s) ∧ P s = true := by
  obtain ⟨⟨b, s⟩, hrun, he⟩ := Option.map_eq_some_iff.1 h
  obtain ⟨rfl, hP⟩ := Prod.mk.inj he
  exact ⟨s, hrun, hP⟩

/-- A head for three items. -/
theorem loaded_ring_iff_three :
    let E₀ := Env.refusing fun _ _ => false
    ∃ s, (scsiSwapLogInit E₀ swapLogHeadOffset swapLogDataOffset).run (World.withLogHead 3 3) = some (true, s) ∧
      ∀ E cs, (runAll (LogCall.run E) cs).run s ≠ none := by
  intro E₀
  obtain ⟨s, hrun, hP⟩ := scsiSwapLogInit_result (E := E₀) (w := World.withLogHead 3 3)
    (fun s => s.log.ring.isSome && decide (s.log.head.itemNum = 3 ∧ s.log.head.itemNext = 3)) (by decide +kernel)
  obtain ⟨hsome, hnums⟩ := Bool.and_eq_true_iff.1 hP
  obtain ⟨r, hr⟩ := Option.isSome_iff_exists.1 hsome
  obtain ⟨hnum, hnext⟩ := of_decide_eq_true hnums
  refine ⟨s, hrun, (loaded_ring_iff hrun hr).2 fun _ => ?_⟩
  unfold LogHead.Fits
  rw [hnum, hnext]
  decide

/-- **Two heads with the right checksum.** With `item_next` 600, the first entry is written behind the buffer;
with 600 items and `item_next` 0, the first one to be shown is looked for before it. -/
theorem loaded_ring_leaves_buffer :
    let E := Env.refusing fun _ _ => false
    (∃ s, (scsiSwapLogInit E swapLogHeadOffset swapLogDataOffset).run (World.withLogHead 0 600) = some (true, s) ∧
      ((LogCall.push ⟨1, 0, 8, 49152, 128⟩).run E).run s = none) ∧
    ∃ s, (scsiSwapLogInit E swapLogHeadOffset swapLogDataOffset).run (World.withLogHead 600 0) = some (true, s) ∧
      ((LogCall.show fun _ => ' ').run E).run s = none := by
  intro E
  obtain ⟨s, hs, hpush⟩ := scsiSwapLogInit_result (E := E) (w := World.withLogHead 0 600)
    (fun s => (((LogCall.push ⟨1, 0, 8, 49152, 128⟩).run E).run s).isNone) (by decide +kernel)
  obtain ⟨t, ht, hshow⟩ := scsiSwapLogInit_result (E := E) (w := World.withLogHead 600 0)
    (fun s => (((LogCall.show fun _ => ' ').run E).run s).isNone) (by decide +kernel)
  exact ⟨⟨s, hs, Option.isNone_iff_eq_none.1 hpush⟩, t, ht, Option.isNone_iff_eq_none.1 hshow⟩

/-! ## Checksums -/

/-- The bytes of an item that `scsi_swap_log_item_init` fills in after it has taken the checksum. -/
def LogEntry.bytes (e : LogEntry) : List Byte :=
  List.ofFn (leEquiv 8 e.src) ++ List.ofFn (leEquiv 8 e.dst) ++ List.ofFn (leEquiv 2 e.count) ++
    [e.type, e.result]

/-- The checksum does not see the entry: its bytes leave the register as it is. -/
def LogEntry.Unseen (e : LogEntry) : Prop := swapCrc32 0xffffffff e.bytes = 0xffffffff

theorem LogItem.ofFn_body (t : LogItem) :
    List.ofFn t.body = List.ofFn (leEquiv 4 t.time) ++
      (List.ofFn (leEquiv 8 t.secSrc) ++ List.ofFn (leEquiv 8 t.secDst) ++ List.ofFn (leEquiv 2 t.secCount) ++
        [t.type, t.result]) ++
      [t.rebootCount, t.fixCount, t.currCount, t.reserved] := by
  have happ : ∀ {m n : ℕ} (a : Bytes m) (b : Bytes n), List.ofFn (Fin.appendEquiv m n (a, b)) =
      List.ofFn a ++ List.ofFn b :=
    fun a b => List.ofFn_fin_append a b
  unfold LogItem.body
  rw [happ, happ, happ, happ]
  simp

theorem LogEntry.item_valid_iff (e : LogEntry) (time : BitVec 32) (last : Option LogItem) :
    (e.item time last).crc = (e.item time last).crcItem ↔ e.Unseen := by
  have hzeros : List.ofFn (leEquiv 8 (0 : BitVec (8 * 8))) ++ List.ofFn (leEquiv 8 (0 : BitVec (8 * 8))) ++
      List.ofFn (leEquiv 2 (0 : BitVec (2 * 8))) ++ [0, 0] = List.replicate e.bytes.length (0 : Byte) := by
    rw [leEquiv_zero, leEquiv_zero]
    simp [LogEntry.bytes]
  have hbegun : (e.item time last).crc = swapCrc32 0xffffffff (List.ofFn (LogItem.begun time last).body) := rfl
  have hdone : (e.item time last).crcItem = swapCrc32 0xffffffff (List.ofFn (e.item time last).body) := rfl
  rw [hbegun, hdone, LogItem.ofFn_body, LogItem.ofFn_body]
  unfold LogEntry.Unseen
  rw [← swapCrc32_zeroed_iff 0xffffffff (List.ofFn (leEquiv 4 time)) e.bytes
    [(last.map (·.rebootCount)).getD 0, (last.map (·.fixCount)).getD 0,
      (last.map (·.currCount)).getD 0 + 1, 0], ← hzeros]
  rfl

/-- The items made of entries, one after the other, are right as far as the checksum does not see them. -/
theorem pushes_hold : ∀ (es : List LogEntry) {xs : List LogItem} {r : Cspring LogItem} {s : World},
    s.log.ring = some r →
    r.Holds 512 xs → ∃ rs s' r' ys, (runAll (LogEntry.push E) es).run s = some (rs, s') ∧ s'.log.ring = some r' ∧
      r'.Holds 512 (xs ++ ys) ∧ List.Forall₂ (fun e x => x.crc = x.crcItem ↔ e.Unseen) es ys := by
  intro es
  induction es with
  | nil =>
    intro xs r s hring h
    exact ⟨[], s, r, [], rfl, hring, by rw [List.append_nil]; exact h, .nil⟩
  | cons e es ih =>
    intro xs r s hring h
    obtain ⟨r₁, hpush, h₁⟩ := h.push (e.item (E.clock s.tick) xs.getLast?)
    obtain ⟨b, s₁, hrun, hring₁⟩ := push_run hring (scsiSwapLogLast_holds h) hpush
    obtain ⟨rs, s', r', ys, hrest, hring', h', hys⟩ := ih hring₁ h₁
    refine ⟨b :: rs, s', r', _ :: ys, ?_,
      hring', by rw [List.append_assoc] at h'; exact h', .cons (e.item_valid_iff ..) hys⟩
    unfold runAll
    rw [run_bind_of hrun, run_bind_of hrest]
    rfl

theorem forall₂_all_iff {α β : Type} {P : α → Prop} {Q : β → Prop} {as : List α} {bs : List β}
    (h : List.Forall₂ (fun a b => Q b ↔ P a) as bs) : (∀ b ∈ bs, Q b) ↔ ∀ a ∈ as, P a := by
  induction h with
  | nil => simp
  | cons hab _ ih => simp only [List.forall_mem_cons, hab, ih]

/-- **The checksums of the items in the log.** After any pushes on an empty log, every item in the ring has the
right checksum exactly if the checksum does not see the arguments of the pushes, the last 512 of them. -/
theorem items_valid_iff (hring : s.log.ring = some r) (hsized : r.Sized 512) (hnum : r.itemNum = 0)
    (hnext : r.itemNext = 0) (E : Env) (es : List LogEntry) :
    ∃ rs s' r', (runAll (LogEntry.push E) es).run s = some (rs, s') ∧ s'.log.ring = some r' ∧
      ((∀ x, some x ∈ r'.items → x.crc = x.crcItem) ↔ ∀ e ∈ es.drop (es.length - 512), e.Unseen) := by
  have hempty : r.Holds 512 [] := ⟨⟨hsized, hnum, hnext⟩, fun j _ x hx => by simp at hx⟩
  obtain ⟨rs, s', r', ys, hrun, hring', h', hys⟩ := pushes_hold (E := E) es hring hempty
  rw [List.nil_append] at h'
  refine ⟨rs, s', r', hrun, hring', ?_⟩
  rw [h'.items, ← hys.length_eq]
  simp only [List.mem_map, Option.some.injEq, exists_eq_right]
  exact forall₂_all_iff (List.forall₂_drop _ hys)

/-- A blank disk, and a log without items. -/
def World.withLog : World :=
  { World.blank with
    log := { World.blank.log with ring := some (.create 32 512 fun _ => ⟨0, 0, 0, 0, 0, 0, 0, 0, 0, 0, 0⟩) } }

/-- Three entries, one of them not zero. Its bytes are a multiple of the generator polynomial. -/
theorem items_valid_iff_unseen :
    let es : List LogEntry := [⟨0, 0, 0, 0, 0⟩, ⟨0, 0, 0xc5b428ef00000008, 0, 0⟩, ⟨0, 0, 0, 0, 0⟩]
    ∃ rs s' r', (runAll (LogEntry.push (Env.refusing fun _ _ => false)) es).run World.withLog = some (rs, s') ∧
      s'.log.ring = some r' ∧ ∀ x, some x ∈ r'.items → x.crc = x.crcItem := by
  intro es
  obtain ⟨rs, s', r', hrun, hring, hiff⟩ :=
    items_valid_iff (s := World.withLog) rfl ⟨rfl, rfl, by decide, by decide⟩ rfl rfl
    (Env.refusing fun _ _ => false) es
  have hunseen : ∀ e ∈ es, e.Unseen := by
    unfold LogEntry.Unseen
    decide +kernel
  exact ⟨rs, s', r', hrun, hring, hiff.2 fun e he => hunseen e (List.mem_of_mem_drop he)⟩

/-- **An entry for a new mapping** does not have the right checksum. -/
theorem item_not_valid :
    ((runAll (LogEntry.push (Env.refusing fun _ _ => false)) [⟨0, 0, 8, 49152, 128⟩]).run World.withLog).map
      (fun x => x.2.log.ring.map fun r => r.items.map fun o => o.map fun t => decide (t.crc = t.crcItem)) =
      some (some [some false]) := by
  decide +kernel

end ScsiSwap
