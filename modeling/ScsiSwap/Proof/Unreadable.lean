import ScsiSwap.Proof.Load
import ScsiSwap.Proof.Total

/-!
# Loading over unreadable blocks

When the data of an entry cannot be read at start, `init_swap_info` calls `swap_recreate` for a mapping
without data. That function was written for mappings that have data: once it has found a spare block
it reads into the null pointer.

* `loadSlot_eq_none`: one slot kills the kernel exactly when its entry is `Stranded`;
* `init_survives_iff`: a start finishes, with data for every listed mapping, if and only if it comes
  to no stranded entry.
-/

namespace ScsiSwap

open StateOption

variable {E : Env} {s s' u : World} {e : SwapTable}

/-! ## One slot -/

/-- The state in which the loader reads the data for the entry `e` that it found in state `u`. -/
def World.slotTaken (u : World) (e : SwapTable) : World :=
  { u.setInfo u.brk ⟨e, none⟩ with brk := u.brk + 1, tick := u.tick + 1 }

/-- The entry `e` passes the tests of the loader in state `u`, its data cannot be read, and there is a spare
block for it. -/
structure Stranded (E : Env) (e : SwapTable) (u : World) : Prop where
  memory : E.kmalloc u.tick = true
  accepted : e.Accepted u.geom
  room : u.core.infoNum < maxSwapBlockForUse
  unread : ∃ u₁ index u₂, (allocSwapInfoData E e.swapSec.toNat e.secSize.toNat).run (u.slotTaken e) =
    some (none, u₁) ∧
    (swapAllocNewBlock E).run u₁ = some (some index, u₂)

/-- **`swap_recreate` on a mapping without data** dies as soon as it has a block to move it to. -/
theorem swapRecreate_eq_none {p : ℕ} (hp : (s.heap p).data = none) :
    (swapRecreate E p).run s = none ↔
      s.core.infoNum < maxSwapBlockForUse ∧ ∃ index s₁, (swapAllocNewBlock E).run s = some (some index, s₁) := by
  unfold swapRecreate
  rw [run_get_bind]
  by_cases hroom : s.core.infoNum ≥ maxSwapBlockForUse
  · rw [if_pos hroom]
    exact ⟨fun h => absurd h ((Total.pure _).ne_none _), fun h => absurd h.1 (Nat.not_lt.2 hroom)⟩
  rw [if_neg hroom]
  obtain ⟨o, s₁, h1⟩ := (swapAllocNewBlock_total (E := E)).run s
  rw [run_bind_of h1]
  cases o with
  | none =>
    refine ⟨fun h => absurd h ((Total.pure _).ne_none _), ?_⟩
    rintro ⟨-, index, s₂, h2⟩
    exact absurd (run_det h1 h2).1 (by simp)
  | some index =>
    refine ⟨fun _ => ⟨Nat.lt_of_not_ge hroom, index, s₁, h1⟩, fun _ => ?_⟩
    obtain ⟨b, hal⟩ := swapAllocNewBlock_alloc h1
    have hnull : (s₁.heap p).data = none := (congrArg SwapInfo.data (hal.upd.info p)).trans hp
    refine run_bind_eq_none.2 (Or.inl ?_)
    have hrange : List.range 128 = 0 :: (List.range 127).map Nat.succ := List.range_succ_eq_map
    rw [hrange]
    refine run_bind_eq_none.2 (Or.inl ?_)
    unfold rereadSector
    rw [run_get_bind, hnull]
    rfl

/-- **A slot kills the kernel** exactly when its entry is stranded. -/
theorem loadSlot_eq_none : (loadSlot E e).run u = none ↔ Stranded E e u := by
  unfold loadSlot
  rw [run_bind_of (kmalloc_run E u)]
  by_cases hk : E.kmalloc u.tick = true
  swap
  · rw [if_neg hk]
    exact ⟨fun h => absurd h ((Total.pure _).ne_none _), fun h => absurd h.memory hk⟩
  rw [if_pos hk, run_get_bind]
  dsimp only
  rw [run_set_bind]
  by_cases hsize : e.secSize = 128
  swap
  · rw [if_pos hsize]
    exact ⟨fun h => absurd h ((Total.pure _).ne_none _), fun h => absurd h.accepted.size hsize⟩
  rw [if_neg (not_not.2 hsize)]
  by_cases hrange : e.swapSec.toNat < u.core.sectorData ∨ e.srcSec.toNat > u.core.sectorReserveStart
  · rw [if_pos hrange]
    refine ⟨fun h => absurd h ((Total.pure _).ne_none _), fun h => ?_⟩
    exact absurd hrange (not_or.2 ⟨Nat.not_lt.2 h.accepted.swap, Nat.not_lt.2 h.accepted.src⟩)
  rw [if_neg hrange]
  by_cases hcrc : e.crc = e.checksum
  swap
  · rw [if_pos hcrc]
    exact ⟨fun h => absurd h ((Total.pure _).ne_none _), fun h => absurd h.accepted.crc hcrc⟩
  rw [if_neg (not_not.2 hcrc)]
  have hacc : e.Accepted u.geom :=
    ⟨hsize, hcrc, Nat.le_of_not_lt (not_or.1 hrange).1, Nat.le_of_not_lt (not_or.1 hrange).2⟩
  show (allocSwapInfoData E _ _ >>= _).run (u.slotTaken e) = none ↔ _
  obtain ⟨data, u₁, h1⟩ := (allocSwapInfoData_total (E := E) e.swapSec.toNat e.secSize.toNat).run (u.slotTaken e)
  rw [run_bind_of h1, run_modify_bind]
  cases data with
  | some d =>
    constructor
    · intro h
      exact absurd h (Total.ne_none ((Total.pure _).bind fun _ =>
        .ite (.get_bind fun _ => (Total.set _).bind fun _ => .pure _)
        (.pure _)) _)
    · rintro ⟨-, -, -, u₂, index, u₃, h2, -⟩
      exact absurd (run_det h1 h2).1 (by simp)
  -- the block could not be read, so `swap_recreate` gets an entry whose `data` is null
  | none =>
    have hcalm := allocSwapInfoData_calm h1
    have hnull : u₁.heap u.brk = ⟨e, none⟩ := by
      rw [hcalm.heap]
      exact Function.update_self ..
    have hsame : u₁.setInfo u.brk { u₁.heap u.brk with data := none } = u₁ := by
      unfold World.setInfo
      rw [hnull, ← hnull, Function.update_eq_self]
    have hdata : (u₁.heap u.brk).data = none := by rw [hnull]
    have hnum : u₁.core.infoNum = u.core.infoNum := by
      rw [hcalm.core]
      rfl
    have hrest : ∀ ok : Bool, Total (if ok then (do
        let s ← get
        set { s with
          core := { s.core with infoList := s.core.infoList ++ [u.brk], infoNum := s.core.infoNum + 1 } }
        return (SlotRes.loaded, (s.heap u.brk).table))
      else return (SlotRes.error, e) : SwapM (SlotRes × SwapTable)) :=
      fun ok => .ite (.get_bind fun _ => (Total.set _).bind fun _ => .pure _) (.pure _)
    rw [hsame, run_bind_eq_none]
    constructor
    · rintro (h | ⟨ok, u₂, -, h⟩)
      · obtain ⟨hroom, index, u₂, h2⟩ := (swapRecreate_eq_none hdata).1 h
        exact ⟨hk, hacc, hnum ▸ hroom, u₁, index, u₂, h1, h2⟩
      · exact absurd h ((hrest ok).ne_none _)
    · rintro ⟨-, -, hroom, u₂, index, u₃, h2, h3⟩
      obtain ⟨-, rfl⟩ := run_det h1 h2
      exact Or.inl ((swapRecreate_eq_none hdata).2 ⟨hnum ▸ hroom, index, u₃, h3⟩)

/-! ## The table -/

/-- The entries the loop over the slots `js` comes to, each with the state before it. -/
inductive SlotVisit (E : Env) : List (Fin 8) → Sector → World → SwapTable → World → Prop
  | here {j : Fin 8} {js : List (Fin 8)} {b : Sector} {s : World} : SlotVisit E (j :: js) b s (tableSlots b j) s
  | next {j : Fin 8} {js : List (Fin 8)} {b : Sector} {s s₁ u : World} {t e : SwapTable}
      (h : (loadSlot E (tableSlots b j)).run s = some ((.loaded, t), s₁))
      (hn : SlotVisit E js (putTable b j t) s₁ e u) : SlotVisit E (j :: js) b s e u

/-- The entries the loop over the table sectors comes to. -/
inductive TableVisit (E : Env) (sync : TableSync) (limit : ℕ) : ℕ → ℕ → ℕ → World → SwapTable → World → Prop
  | here {n start pos : ℕ} {buf : ℕ → Option Sector} {s s₁ u : World} {e : SwapTable}
      (h : (hdReadSectorRetry E start 1).run s = some ((true, buf), s₁))
      (hv : SlotVisit E (List.finRange 8) ((buf 0).getD zeroSector) s₁ e u) :
      TableVisit E sync limit (n + 1) start pos s e u
  | next {n start pos pos' : ℕ} {buf : ℕ → Option Sector} {b : Sector} {s s₁ s₂ s₃ u : World} {e : SwapTable}
      (h : (hdReadSectorRetry E start 1).run s = some ((true, buf), s₁))
      (hl : (loadSlots E (List.finRange 8) ((buf 0).getD zeroSector)).run s₁ = some ((.loaded, b), s₂))
      (hw : (if sync = .noNeedSync then pure pos else writeSkip E b limit (limit - pos) pos : SwapM ℕ).run s₂ =
        some (pos', s₃))
      (hn : TableVisit E sync limit n (start + 1) pos' s₃ e u) : TableVisit E sync limit (n + 1) start pos s e u
  | skip {n start pos : ℕ} {buf : ℕ → Option Sector} {s s₁ u : World} {e : SwapTable}
      (h : (hdReadSectorRetry E start 1).run s = some ((false, buf), s₁))
      (hn : TableVisit E sync limit n (start + 1) pos s₁ e u) : TableVisit E sync limit (n + 1) start pos s e u

theorem loadSlots_eq_none : ∀ {js : List (Fin 8)} {b : Sector} {s : World},
    (loadSlots E js b).run s = none ↔ ∃ e u, SlotVisit E js b s e u ∧ Stranded E e u := by
  intro js
  induction js with
  | nil =>
    intro b s
    refine ⟨fun h => absurd h ((Total.pure _).ne_none _), ?_⟩
    rintro ⟨e, u, hv, -⟩
    cases hv
  | cons j js ih =>
    intro b s
    unfold loadSlots
    rw [run_bind_eq_none, loadSlot_eq_none]
    constructor
    · rintro (h | ⟨⟨r, t⟩, s₁, h1, h2⟩)
      · exact ⟨_, s, .here, h⟩
      · dsimp only at h2
        split at h2
        · rename_i hr
          subst hr
          obtain ⟨e, u, hv, hs⟩ := ih.1 h2
          exact ⟨e, u, .next h1 hv, hs⟩
        · exact absurd h2 ((Total.pure _).ne_none _)
    · rintro ⟨e, u, hv, hs⟩
      cases hv with
      | here => exact Or.inl hs
      | @next _ _ _ _ s₁ _ t _ h hn =>
        refine Or.inr ⟨(.loaded, t), s₁, h, ?_⟩
        dsimp only
        rw [if_pos rfl]
        exact ih.2 ⟨e, u, hn, hs⟩

theorem loadTable_eq_none {sync : TableSync} {limit : ℕ} : ∀ {n start pos : ℕ} {s : World},
    (loadTable E sync limit n start pos).run s = none ↔
      ∃ e u, TableVisit E sync limit n start pos s e u ∧ Stranded E e u := by
  intro n
  induction n with
  | zero =>
    intro start pos s
    refine ⟨fun h => absurd h ((Total.pure _).ne_none _), ?_⟩
    rintro ⟨e, u, hv, -⟩
    cases hv
  | succ n ih =>
    intro start pos s
    have hread : Total (hdReadSectorRetry E start 1) := hdReadSector_total ..
    obtain ⟨⟨ok, buf⟩, s₁, h1⟩ := hread.run s
    unfold loadTable
    rw [run_bind_of h1]
    dsimp only
    cases ok with
    | false =>
      -- a sector that cannot be read is passed over
      rw [if_neg (by simp), ih]
      constructor
      · rintro ⟨e, u, hv, hs⟩
        exact ⟨e, u, .skip h1 hv, hs⟩
      · rintro ⟨e, u, hv, hs⟩
        cases hv with
        | here h _ => exact absurd (congrArg Prod.fst (run_det h1 h).1) (by simp)
        | next h _ _ _ => exact absurd (congrArg Prod.fst (run_det h1 h).1) (by simp)
        | skip h hn =>
          rw [(run_det h1 h).2] at hn
          exact ⟨e, u, hn, hs⟩
    | true =>
      -- it dies in the slots of this sector, or in a later one
      rw [if_pos rfl, run_bind_eq_none, loadSlots_eq_none]
      constructor
      · rintro (⟨e, u, hv, hs⟩ | ⟨⟨r, b⟩, s₂, h2, h3⟩)
        · exact ⟨e, u, .here h1 hv, hs⟩
        dsimp only at h3
        split at h3
        · exact absurd h3 ((Total.pure _).ne_none _)
        rename_i herr
        have hskip : Total (if sync = .noNeedSync then pure pos
            else writeSkip E b limit (limit - pos) pos : SwapM ℕ) :=
          .ite (.pure _) (writeSkip_total ..)
        obtain ⟨pos', s₃, h4⟩ := hskip.run s₂
        rw [run_bind_of h4] at h3
        split at h3
        · exact absurd h3 ((Total.pure _).ne_none _)
        rename_i hstop
        obtain ⟨e, u, hv, hs⟩ := ih.1 h3
        have hr : r = .loaded := by
          cases r with
          | error => exact absurd rfl herr
          | stop => exact absurd rfl hstop
          | loaded => rfl
        subst hr
        exact ⟨e, u, .next h1 h2 h4 hv, hs⟩
      · rintro ⟨e, u, hv, hs⟩
        cases hv with
        | here h hv =>
          obtain ⟨hb, hs₁⟩ := run_det h1 h
          rw [(Prod.mk.inj hb).2, hs₁] at hv
          exact Or.inl ⟨e, u, hv, hs⟩
        | @next _ _ _ pos' _ b _ _ s₂ s₃ _ _ h hl hw hn =>
          obtain ⟨hb, hs₁⟩ := run_det h1 h
          rw [(Prod.mk.inj hb).2, hs₁] at hl
          refine Or.inr ⟨(.loaded, b), s₂, hl, ?_⟩
          dsimp only
          rw [if_neg (by simp), run_bind_of hw, if_neg (by simp)]
          exact ih.2 ⟨e, u, hn, hs⟩
        | skip h _ => exact absurd (congrArg Prod.fst (run_det h1 h).1) (by simp)

/-! ## The start -/

/-- The entries `init_swap_info` comes to: those of the copy of the table that has more of them. -/
inductive InfoVisit (E : Env) (s : World) (e : SwapTable) (u : World) : Prop
  | backup {num numBack s₁ s₂}
      (h1 : (calcSwapInfoNum E swpaTableNSector s.core.sectorTable 0).run
        { s with core := { s.core with infoList := [], infoNum := 0 } } = some (num, s₁))
      (h2 : (calcSwapInfoNum E swpaTableNSector (s.core.sectorReserveStart + swapTableBackupOffset) 0).run s₁ =
        some (numBack, s₂)) (hn : numBack > num)
      (hv : TableVisit E .masterNeedSync (s.core.sectorTable + swpaTableNSector) swpaTableNSector
        (s.core.sectorReserveStart + swapTableBackupOffset) s.core.sectorTable s₂ e u)
  | master {num numBack s₁ s₂}
      (h1 : (calcSwapInfoNum E swpaTableNSector s.core.sectorTable 0).run
        { s with core := { s.core with infoList := [], infoNum := 0 } } = some (num, s₁))
      (h2 : (calcSwapInfoNum E swpaTableNSector (s.core.sectorReserveStart + swapTableBackupOffset) 0).run s₁ =
        some (numBack, s₂)) (hn : numBack < num)
      (hv : TableVisit E .backupNeedSync (s.core.sectorReserveStart + swapTableBackupOffset + swpaTableNSector)
        swpaTableNSector s.core.sectorTable (s.core.sectorReserveStart + swapTableBackupOffset) s₂ e u)
  | both {num s₁ s₂}
      (h1 : (calcSwapInfoNum E swpaTableNSector s.core.sectorTable 0).run
        { s with core := { s.core with infoList := [], infoNum := 0 } } = some (num, s₁))
      (h2 : (calcSwapInfoNum E swpaTableNSector (s.core.sectorReserveStart + swapTableBackupOffset) 0).run s₁ =
        some (num, s₂)) (hn : num ≠ 0)
      (hv : TableVisit E .noNeedSync 0 swpaTableNSector s.core.sectorTable 0 s₂ e u)

theorem initSwapInfo_eq_none : (initSwapInfo E).run s = none ↔ ∃ e u, InfoVisit E s e u ∧ Stranded E e u := by
  unfold initSwapInfo
  rw [run_modify_bind, run_get_bind]
  dsimp only
  obtain ⟨num, s₁, h1⟩ := (calcSwapInfoNum_total (E := E) swpaTableNSector s.core.sectorTable 0).run
    { s with core := { s.core with infoList := [], infoNum := 0 } }
  obtain ⟨numBack, s₂, h2⟩ := (calcSwapInfoNum_total (E := E) swpaTableNSector
    (s.core.sectorReserveStart + swapTableBackupOffset) 0).run s₁
  rw [run_bind_of h1, run_bind_of h2]
  -- the numbers that any visit has counted are these
  have same : ∀ {n m t₁ t₂}, (calcSwapInfoNum E swpaTableNSector s.core.sectorTable 0).run
      { s with core := { s.core with infoList := [], infoNum := 0 } } = some (n, t₁) →
      (calcSwapInfoNum E swpaTableNSector (s.core.sectorReserveStart + swapTableBackupOffset) 0).run t₁ =
        some (m, t₂) →
      n = num ∧ m = numBack ∧ t₂ = s₂ := by
    intro n m t₁ t₂ h3 h4
    obtain ⟨hn, rfl⟩ := run_det h1 h3
    obtain ⟨hm, ht⟩ := run_det h2 h4
    exact ⟨hn, hm, ht⟩
  by_cases hlt : numBack > num
  · rw [if_pos hlt, loadTable_eq_none]
    constructor
    · rintro ⟨e, u, hv, hs⟩
      exact ⟨e, u, .backup h1 h2 hlt hv, hs⟩
    · rintro ⟨e, u, hv, hs⟩
      refine ⟨e, u, ?_, hs⟩
      cases hv with
      | backup h3 h4 _ hv => rwa [(same h3 h4).2.2] at hv
      | master h3 h4 hn _ => have := same h3 h4; omega
      | both h3 h4 _ _ => have := same h3 h4; omega
  rw [if_neg hlt]
  by_cases hgt : numBack < num
  · rw [if_pos hgt, loadTable_eq_none]
    constructor
    · rintro ⟨e, u, hv, hs⟩
      exact ⟨e, u, .master h1 h2 hgt hv, hs⟩
    · rintro ⟨e, u, hv, hs⟩
      refine ⟨e, u, ?_, hs⟩
      cases hv with
      | backup h3 h4 hn _ => have := same h3 h4; omega
      | master h3 h4 _ hv => rwa [(same h3 h4).2.2] at hv
      | both h3 h4 _ _ => have := same h3 h4; omega
  rw [if_neg hgt]
  obtain rfl : numBack = num := by omega
  by_cases hzero : numBack = 0
  · rw [if_pos hzero]
    refine ⟨fun h => absurd h ((Total.pure _).ne_none _), ?_⟩
    rintro ⟨e, u, hv, -⟩
    cases hv with
    | backup h3 h4 hn _ => have := same h3 h4; omega
    | master h3 h4 hn _ => have := same h3 h4; omega
    | both h3 h4 hn _ => have := same h3 h4; omega
  · rw [if_neg hzero, loadTable_eq_none]
    constructor
    · rintro ⟨e, u, hv, hs⟩
      exact ⟨e, u, .both h1 h2 hzero hv, hs⟩
    · rintro ⟨e, u, hv, hs⟩
      refine ⟨e, u, ?_, hs⟩
      cases hv with
      | backup h3 h4 hn _ => have := same h3 h4; omega
      | master h3 h4 hn _ => have := same h3 h4; omega
      | both h3 h4 _ hv => rwa [(same h3 h4).2.2] at hv

/-- The layout is the same, but for the place of the head. -/
def SameLayout (s s' : World) : Prop := ({ s'.geom with head := 0 } : Geom) = { s.geom with head := 0 }

namespace SameLayout

theorem refl (s : World) : SameLayout s s := rfl

theorem trans : ∀ a b c : World, SameLayout a b → SameLayout b c → SameLayout a c :=
  fun _ _ _ h h' => Eq.trans h' h

theorem of_geom (h : s'.geom = s.geom) : SameLayout s s' :=
  congrArg (fun g : Geom => ({ g with head := 0 } : Geom)) h

theorem write (w : Writer) (sector n : ℕ) (buf : ℕ → Sector) :
    Carries SameLayout (hdWriteSectorRetry E w sector n buf) :=
  fun _ _ _ h => of_geom (hdWriteSector_dev h).geom

theorem headState (sector : ℕ) (old : SwapHead) : Carries SameLayout (swapGetHeadState E sector old) := by
  refine .bind trans ?_ fun _ => .pure refl _
  intro s a s' h
  exact of_geom (hdReadSector_dev (A := fun _ => False) h).geom

theorem checkBlock (secStart : ℕ) : ∀ n i, Carries SameLayout (swapCheckBlockBySector E secStart n i) := by
  intro n
  induction n with
  | zero => exact fun _ => .pure refl _
  | succ n ih =>
    intro i
    unfold swapCheckBlockBySector
    exact .bind trans (write _ _ _ _) fun _ => .ite (ih _) (.pure refl _)

theorem newHead' : Carries SameLayout (swapCreateNewHead' E) := by
  refine .bind trans (.modify fun _ => rfl) fun _ => ?_
  intro s a s' h
  exact of_geom (flushSwapHead_dev h).geom

theorem createHead : ∀ n, Carries SameLayout (createHeadLoop E n) := by
  intro n
  induction n with
  | zero => exact .pure refl _
  | succ n ih =>
    unfold createHeadLoop
    refine .get_bind fun s => .bind trans (checkBlock _ _ _) fun o => ?_
    cases o with
    | none => exact .bind trans (.modify fun _ => rfl) fun _ => newHead'
    | some bad =>
      refine .bind trans ?_ fun _ => .bind trans (.modify fun _ => rfl) fun _ => ih
      exact .ite (.bind trans (.modify fun _ => rfl) fun _ => .bind trans newHead' fun _ => .pure refl _)
        (.pure refl _)

theorem initHead : ∀ n secStart, Carries SameLayout (initHeadLoop E n secStart) := by
  intro n
  induction n with
  | zero => exact fun _ => .bind trans (.modify fun _ => rfl) fun _ => .pure refl _
  | succ n ih =>
    intro secStart
    unfold initHeadLoop
    refine .get_bind fun s => .bind trans (headState _ _) fun _ => .bind trans (.modify fun _ => rfl)
      fun _ => .ite (ih _) ?_
    refine .bind trans (headState _ _) fun _ => .ite (ih _) (.ite ?_ (.ite ?_ ?_))
    · refine .bind trans ?_ fun _ => .bind trans (.modify fun _ => rfl) fun _ => .pure refl _
      exact .ite (.bind trans (write _ _ _ _) fun _ => .pure refl _) (.pure refl _)
    · exact .bind trans (.modify fun _ => rfl) fun _ => .bind trans (write _ _ _ _) fun _ =>
        .bind trans (.modify fun _ => rfl) fun _ => .pure refl _
    · refine .bind trans (.bind trans (.modify fun _ => rfl) fun _ => createHead _) fun _ => ?_
      exact .ite (.pure refl _) (.bind trans (.modify fun _ => rfl) fun _ => .pure refl _)

end SameLayout

/-- The first lines of `scsi_swap_core_init`. -/
def World.laidOut (s : World) (R : ℕ) : World :=
  { s with core := { s.core with
    sectorReserveStart := R
    sectorHead := R + swapHeadOffest
    sectorData := R + swapDataOffset
    sectorTable := R + swapTableOffset } }

/-- The entries `scsi_swap_core_init` comes to. -/
def InitVisit (E : Env) (R : ℕ) (s : World) (e : SwapTable) (u : World) : Prop :=
  ∃ s₁, (initSwapHead E (R + swapHeadOffest)).run (s.laidOut R) = some (true, s₁) ∧ InfoVisit E s₁ e u

theorem scsiSwapCoreInit_eq_none {R : ℕ} :
    (scsiSwapCoreInit E R).run s = none ↔ ∃ e u, InitVisit E R s e u ∧ Stranded E e u := by
  unfold scsiSwapCoreInit
  rw [run_modify_bind]
  show (initSwapHead E _ >>= _).run (s.laidOut R) = none ↔ _
  have hhead : Total (initSwapHead E (R + swapHeadOffest)) := initHeadLoop_total ..
  obtain ⟨found, s₁, h1⟩ := hhead.run (s.laidOut R)
  rw [run_bind_of h1]
  cases found with
  | false =>
    refine ⟨fun h => absurd h ((Total.pure _).ne_none _), ?_⟩
    rintro ⟨e, u, ⟨s₂, h2, -⟩, -⟩
    exact absurd (run_det h1 h2).1 (by simp)
  | true =>
    rw [if_pos rfl, run_bind_eq_none, initSwapInfo_eq_none]
    constructor
    · rintro (⟨e, u, hv, hs⟩ | ⟨ok, s₂, -, h⟩)
      · exact ⟨e, u, ⟨s₁, h1, hv⟩, hs⟩
      · refine absurd h (Total.ne_none (.ite ?_ ?_) _)
        · exact (Total.modify _).bind fun _ => .pure _
        · exact (Total.modify _).bind fun _ => .pure _
    · rintro ⟨e, u, ⟨s₂, h2, hv⟩, hs⟩
      rw [(run_det h1 h2).2] at hv
      exact Or.inl ⟨e, u, hv, hs⟩

/-- A start that returns 0 has data for every mapping. -/
theorem scsiSwapCoreInit_data {R : ℕ} (h : (scsiSwapCoreInit E R).run s = some (true, s')) :
    ∀ p ∈ s'.core.infoList, (s'.heap p).data.isSome := by
  unfold scsiSwapCoreInit at h
  rw [run_modify_bind] at h
  obtain ⟨found, s₁, h1, h2⟩ := run_bind_iff.1 h
  have hlay : SameLayout (s.laidOut R) s₁ := SameLayout.initHead _ _ _ _ _ h1
  cases found with
  | false => exact absurd (run_pure_iff.1 h2).1 (by simp)
  | true =>
    rw [if_pos rfl] at h2
    obtain ⟨loaded, s₂, h3, h4⟩ := run_bind_iff.1 h2
    cases loaded with
    | false =>
      unfold swapInfoDestroy at h4
      rw [if_neg (by simp), run_modify_bind] at h4
      exact absurd (run_pure_iff.1 h4).1 (by simp)
    | true =>
      rw [if_pos rfl, run_modify_bind] at h4
      obtain ⟨-, rfl⟩ := run_pure_iff.1 h4
      have hg : s₁.geom = bootGeom s.geom R s₁.core.sectorHead :=
        congrArg (fun g : Geom => ({ g with head := s₁.core.sectorHead } : Geom)) hlay
      obtain ⟨a, ts, -, -, hl, -, -⟩ := initSwapInfo_rule (loading_rule (A := fun _ => True) s₁.disk s₁
        fun _ _ => trivial) h3 fun a ha => ⟨hg, ha, .refl _, fun k hk => Or.inl rfl⟩
      exact hl.data

/-- **A start over unreadable blocks.** `scsi_swap_core_init` does not use the data of a mapping that has none,
and has data for every mapping it lists when it returns 0, if and only if it comes to no stranded entry: one
whose data cannot be read while there is a spare block to move it to. -/
theorem init_survives_iff (E : Env) (R : ℕ) (s : World) :
    ((scsiSwapCoreInit E R).run s ≠ none ∧ ∀ s', (scsiSwapCoreInit E R).run s = some (true, s') →
      ∀ p ∈ s'.core.infoList, (s'.heap p).data.isSome) ↔
    ∀ e u, InitVisit E R s e u → ¬ Stranded E e u := by
  constructor
  · rintro ⟨h, -⟩ e u hv hs
    exact h (scsiSwapCoreInit_eq_none.2 ⟨e, u, hv, hs⟩)
  · intro h
    refine ⟨fun hnone => ?_, fun s' hrun => scsiSwapCoreInit_data hrun⟩
    obtain ⟨e, u, hv, hs⟩ := scsiSwapCoreInit_eq_none.1 hnone
    exact h e u hv hs

/-- A blank disk with one entry in its table, and a device that reads everything. -/
theorem init_survives_iff_healthy :
    let E := Env.refusing fun _ _ => false
    let e := entryFor (1000 + swapDataOffset) 0 0
    let s := { World.blank with
      disk := fun x => if x = 1000 + swapTableOffset then putTable zeroSector 0 e else zeroSector }
    ∃ s', (scsiSwapCoreInit E 1000).run s = some (true, s') ∧ s'.core.infoNum = 1 ∧
      ∀ p ∈ s'.core.infoList, (s'.heap p).data.isSome := by
  intro E e s
  have hhealthy : ∀ e u, InitVisit E 1000 s e u → ¬ Stranded E e u := by
    rintro e u - ⟨hk, hacc, hroom, u₁, index, u₂, h1, -⟩
    rw [hacc.size] at h1
    have hread : ∃ u', (allocSwapInfoData E e.swapSec.toNat 128).run (u.slotTaken e) =
        some (some fun k : Fin 128 => (u.slotTaken e).disk (e.swapSec.toNat % 2 ^ 32 + k), u') ∧
          Calm (u.slotTaken e) u' ∧ u'.disk = (u.slotTaken e).disk :=
      allocSwapInfoData_ok rfl fun _ => rfl
    obtain ⟨u₃, h2, -⟩ := hread
    exact absurd (run_det h1 h2).1 (by simp)
  obtain ⟨u, h⟩ := run_of_result (a := (true, 1)) (x := do
    let ok ← scsiSwapCoreInit E 1000
    let s ← get
    return (ok, s.core.infoNum)) (s := s) (by decide +kernel)
  obtain ⟨ok, s', h1, h2⟩ := run_bind_iff.1 h
  rw [run_get_bind] at h2
  obtain ⟨he, -⟩ := run_pure_iff.1 h2
  obtain ⟨rfl, hnum⟩ := Prod.mk.inj he
  exact ⟨s', h1, hnum.symm, ((init_survives_iff E 1000 s).2 hhealthy).2 s' h1⟩

/-- A blank disk with one entry in its table, whose block cannot be read. -/
theorem init_strands :
    let E := { Env.refusing fun _ _ => false with
      read := fun _ c => if c.lba = 1000 + swapDataOffset then .fail (fun _ => none) false else .ok }
    let e := entryFor (1000 + swapDataOffset) 0 0
    let s := { World.blank with
      disk := fun x => if x = 1000 + swapTableOffset then putTable zeroSector 0 e else zeroSector }
    (scsiSwapCoreInit E 1000).run s = none := by
  intro E e s
  have h : ((scsiSwapCoreInit E 1000).run s).isNone = true := by decide +kernel
  exact Option.isNone_iff_eq_none.1 h

end ScsiSwap
