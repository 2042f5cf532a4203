import ScsiSwap.Proof.Rounds

/-!
# Which commands a piece of code sends

`Sends A s s'`: from `s` to `s'` the driver sent write commands with `A`, one after another, and
nothing else changed the disk. There is a theorem for every function that runs while the disk is in
use. It says that each part of the driver writes where its data belongs (`Tidy`).
-/

namespace ScsiSwap

open StateOption

variable {E : Env} {s s' s'' : World} {A B : Sent → Prop}

/-! ## Sequences of commands -/

/-- Sector `x` is in the range of the command. -/
def Sent.Has (c : Sent) (x : ℕ) : Prop := c.lba ≤ x ∧ x < c.lba + c.count

/-- The commands `l`, the last one first, take the disk from `d` on to what it is then. -/
inductive Follows (d : ℕ → Sector) : List Sent → (ℕ → Sector) → Prop
  | nil : Follows d [] d
  | cons {l : List Sent} {d₁ : ℕ → Sector} {c : Sent} (h : Follows d l d₁)
      (hc : ∀ x, ¬ c.Has x → c.disk x = d₁ x) : Follows d (c :: l) c.disk

theorem Follows.append {d d₁ d₂ : ℕ → Sector} {l l' : List Sent} (h : Follows d l d₁) (h' : Follows d₁ l' d₂) :
    Follows d (l' ++ l) d₂ := by
  induction h' with
  | nil => exact h
  | cons _ hc ih => exact .cons ih hc

/-- Sectors that no command writes keep their contents throughout. -/
theorem Follows.keeps {d d' : ℕ → Sector} {l : List Sent} (h : Follows d l d') {x : ℕ} (hx : ∀ c ∈ l, ¬ c.Has x) :
    d' x = d x ∧ ∀ c ∈ l, c.disk x = d x := by
  induction h with
  | nil => exact ⟨rfl, fun c hc => absurd hc (by simp)⟩
  | @cons l d₁ c _ hc ih =>
    obtain ⟨h1, h2⟩ := ih fun c hc => hx c (List.mem_cons_of_mem _ hc)
    have h0 := (hc x (hx c List.mem_cons_self)).trans h1
    refine ⟨h0, fun c' hc' => ?_⟩
    rcases List.mem_cons.1 hc' with rfl | hc'
    · exact h0
    · exact h2 c' hc'

def Sends (A : Sent → Prop) (s s' : World) : Prop :=
  ∃ l, s'.sent = l ++ s.sent ∧ Follows s.disk l s'.disk ∧ ∀ c ∈ l, A c

/-- Nothing was written. -/
def Quiet (s s' : World) : Prop := s'.sent = s.sent ∧ s'.disk = s.disk

theorem Quiet.sends (h : Quiet s s') : Sends A s s' :=
  ⟨[], h.1, h.2 ▸ .nil, fun c hc => absurd hc (by simp)⟩

theorem Sends.refl (s : World) : Sends A s s := Quiet.sends ⟨rfl, rfl⟩

theorem Sends.trans (h : Sends A s s') (h' : Sends A s' s'') : Sends A s s'' := by
  obtain ⟨l, hl, hf, hA⟩ := h
  obtain ⟨l', hl', hf', hA'⟩ := h'
  refine ⟨l' ++ l, by rw [hl', hl, List.append_assoc], hf.append hf', fun c hc => ?_⟩
  rcases List.mem_append.1 hc with hc | hc
  · exact hA' c hc
  · exact hA c hc

theorem Sends.mono (h : Sends A s s') (hAB : ∀ c, A c → B c) : Sends B s s' := by
  obtain ⟨l, hl, hf, hA⟩ := h
  exact ⟨l, hl, hf, fun c hc => hAB c (hA c hc)⟩

theorem Quiet.trans_sends (h : Quiet s s') (h' : Sends A s' s'') : Sends A s s'' := h.sends.trans h'

theorem hdWriteSector_sends {w : Writer} {r sector n : ℕ} {buf : ℕ → Sector} {a : Bool}
    (h : (hdWriteSector E w r sector n buf).run s = some (a, s')) :
    Sends (fun c => c.writer = w ∧ c.lba = sector % 2 ^ 32 ∧ c.count = n % 2 ^ 16) s s' := by
  rw [hdWriteSector_run] at h
  obtain ⟨-, rfl⟩ := Prod.mk.inj (Option.some.inj h)
  refine ⟨[_], rfl, .cons .nil fun x hx => if_neg hx, fun c hc => ?_⟩
  obtain rfl := List.mem_singleton.1 hc
  exact ⟨rfl, rfl, rfl⟩

/-! ## Code that writes nothing -/

theorem Quiet.refl (s : World) : Quiet s s := ⟨rfl, rfl⟩

theorem Quiet.trans : ∀ a b c : World, Quiet a b → Quiet b c → Quiet a c :=
  fun _ _ _ h h' => ⟨h'.1.trans h.1, h'.2.trans h.2⟩

theorem quiet_get : Carries Quiet (get : SwapM World) := by
  intro s a s' h
  obtain ⟨-, rfl⟩ := Prod.mk.inj (Option.some.inj h)
  exact .refl _

theorem quiet_set {f : World → World} (hf : ∀ s, Quiet s (f s)) : Carries Quiet (modify f : SwapM PUnit) := by
  intro s a s' h
  obtain rfl := run_modify_iff.1 h
  exact hf s

theorem quiet_answered (io : IoResult) : Quiet s (s.answered io) := ⟨rfl, rfl⟩

theorem hdReadSector_quiet (r sector n : ℕ) : Carries Quiet (hdReadSector E r sector n) := by
  intro s a s' h
  rw [hdReadSector_run] at h
  obtain ⟨-, rfl⟩ := Prod.mk.inj (Option.some.inj h)
  exact quiet_answered _

theorem kmalloc_quiet : Carries Quiet (kmalloc E) := by
  intro s a s' h
  unfold kmalloc at h
  rw [run_get_bind, run_set_bind] at h
  obtain ⟨-, rfl⟩ := run_pure_iff.1 h
  exact ⟨rfl, rfl⟩

theorem deviceDeadInc_quiet : Carries Quiet deviceDeadInc := quiet_set fun _ => ⟨rfl, rfl⟩

theorem swapRepairSuccessiveSectors_quiet : Carries Quiet (swapRepairSuccessiveSectors E) := by
  intro s a s' h
  unfold swapRepairSuccessiveSectors at h
  obtain ⟨ok, s₁, h1, h2⟩ := run_bind_iff.1 h
  have hq : Quiet s s₁ := by
    unfold hdTestUnitReady at h1
    rw [run_get_bind, run_set_bind] at h1
    obtain ⟨-, rfl⟩ := run_pure_iff.1 h1
    exact ⟨rfl, rfl⟩
  cases ok with
  | true =>
    obtain ⟨-, rfl⟩ := run_pure_iff.1 h2
    exact hq
  | false =>
    obtain ⟨u, s₂, h3, h4⟩ := run_bind_iff.1 h2
    obtain ⟨-, rfl⟩ := run_pure_iff.1 h4
    exact Quiet.trans _ _ _ hq (deviceDeadInc_quiet _ _ _ h3)

theorem copyAround_quiet (p sector off len : ℕ) : Carries Quiet (copyAround E p sector off len) := by
  unfold copyAround
  split
  · have hread : Carries Quiet (hdReadSectorNoRetry E sector len) := hdReadSector_quiet 0 sector len
    exact .bind Quiet.trans hread fun _ => quiet_set fun _ => ⟨rfl, rfl⟩
  · exact .pure Quiet.refl _

theorem swapAllocInfo_quiet : Carries Quiet (swapAllocInfo E) := by
  intro s a s' h
  unfold swapAllocInfo at h
  obtain ⟨k, s₁, h1, h2⟩ := run_bind_iff.1 h
  have hq := kmalloc_quiet _ _ _ h1
  cases k with
  | false =>
    obtain ⟨-, rfl⟩ := run_pure_iff.1 h2
    exact hq
  | true =>
    rw [if_pos rfl] at h2
    obtain ⟨k, s₂, h3, h4⟩ := run_bind_iff.1 h2
    have hq2 := Quiet.trans _ _ _ hq (kmalloc_quiet _ _ _ h3)
    cases k with
    | false =>
      obtain ⟨-, rfl⟩ := run_pure_iff.1 h4
      exact hq2
    | true =>
      rw [if_pos rfl, run_get_bind, run_set_bind] at h4
      obtain ⟨-, rfl⟩ := run_pure_iff.1 h4
      exact hq2

theorem rereadSector_quiet (p i : ℕ) : Carries Quiet (rereadSector E p i) := by
  intro s a s' h
  unfold rereadSector at h
  rw [run_get_bind] at h
  split at h
  · exact (run_oops h).elim
  obtain ⟨r, s₁, h1, h2⟩ := run_bind_iff.1 h
  have hq : Quiet s s₁ := hdReadSector_quiet _ _ _ _ _ _ h1
  obtain rfl := run_modify_iff.1 h2
  exact hq

/-! ## Flushes -/

/-- The entry is for one of the 1024 blocks from `g.data` on, or overlaps only such. -/
structure SwapTable.InPlace (g : Geom) (t : SwapTable) : Prop where
  size : t.secSize = 128
  lower : g.data ≤ t.swapSec.toNat
  upper : t.swapSec.toNat + 128 ≤ g.data + 128 * maxSwapBlock

/-- The command writes where the data of its writer belongs. -/
def Tidy (g : Geom) (c : Sent) : Prop :=
  match c.writer with
  | .head => HeadArea g c.lba ∧ c.count = 1
  | .table => TableArea g 300 c.lba ∧ c.count = 1
  | .block => ∃ a, g.data ≤ a ∧ a + 128 ≤ g.data + 128 * maxSwapBlock ∧ c.lba = a % 2 ^ 32 ∧ c.count = 128
  | .log => LogArea g c.lba ∧ c.count = 1
  | .user => True

/-- It is one of `ws` that writes. -/
def Of (ws : List Writer) (g : Geom) (c : Sent) : Prop := c.writer ∈ ws ∧ Tidy g c

theorem Of.mono {ws ws' : List Writer} {g : Geom} {c : Sent} (h : Of ws g c) (hw : ws ⊆ ws') : Of ws' g c :=
  ⟨hw h.1, h.2⟩

theorem of_block {g : Geom} {c : Sent} {a n : ℕ} (hlo : g.data ≤ a) (hhi : a + 128 ≤ g.data + 128 * maxSwapBlock)
    (hn : n = 128) (h : c.writer = .block ∧ c.lba = a % 2 ^ 32 ∧ c.count = n % 2 ^ 16) : Of [.block] g c := by
  obtain ⟨h1, h2, h3⟩ := h
  refine ⟨by rw [h1]; exact List.mem_cons_self, ?_⟩
  unfold Tidy
  rw [h1]
  exact ⟨a, hlo, hhi, h2, by omega⟩

theorem flushSwapInfoData_sends {p : ℕ} {a : Bool} (h : (flushSwapInfoData E p).run s = some (a, s'))
    (hp : (s.heap p).table.InPlace s.geom) : Sends (Of [.block] s.geom) s s' := by
  unfold flushSwapInfoData at h
  rw [run_get_bind] at h
  dsimp only at h
  split at h
  · obtain ⟨-, rfl⟩ := run_pure_iff.1 h
    exact .refl _
  · exact (hdWriteSector_sends h).mono fun c hc => of_block hp.lower hp.upper (by rw [hp.size]; rfl) hc

theorem swapCheckBlock_sends {i : ℕ} (hi : i < 1024) {a : Bool}
    (h : (swapCheckBlock E (s.core.sectorData + 128 * i)).run s = some (a, s')) :
    Sends (Of [.block] s.geom) s s' := by
  unfold swapCheckBlock at h
  obtain ⟨k, s₁, h1, h2⟩ := run_bind_iff.1 h
  have hq := kmalloc_quiet _ _ _ h1
  cases k with
  | false =>
    obtain ⟨-, rfl⟩ := run_pure_iff.1 h2
    exact hq.sends
  | true =>
    refine hq.trans_sends ((hdWriteSector_sends h2).mono fun c hc => of_block ?_ ?_ rfl hc)
    · exact Nat.le_add_right _ _
    · show s.core.sectorData + 128 * i + 128 ≤ s.core.sectorData + 128 * 1024
      omega

theorem swapAllocLoop_sends : ∀ {left i : ℕ} {s s' : World} {a : Option ℕ},
    (swapAllocLoop E left i).run s = some (a, s') → i < 1024 → Sends (Of [.block] s.geom) s s' := by
  intro left
  induction left with
  | zero =>
    intro i s s' a h hi
    unfold swapAllocLoop at h
    rw [run_get_bind] at h
    obtain ⟨ok, s₁, h1, h2⟩ := run_bind_iff.1 h
    have hs := swapCheckBlock_sends hi h1
    cases ok with
    | true =>
      rw [if_pos rfl, run_modify_bind] at h2
      obtain ⟨-, rfl⟩ := run_pure_iff.1 h2
      exact hs
    | false =>
      rw [if_neg (by simp)] at h2
      obtain ⟨u, s₂, h3, h4⟩ := run_bind_iff.1 h2
      obtain ⟨-, rfl⟩ := run_pure_iff.1 h4
      exact hs.trans (deviceDeadInc_quiet _ _ _ h3).sends
  | succ left ih =>
    intro i s s' a h hi
    unfold swapAllocLoop at h
    rw [run_get_bind] at h
    obtain ⟨ok, s₁, h1, h2⟩ := run_bind_iff.1 h
    have hs := swapCheckBlock_sends hi h1
    have hg : s₁.geom = s.geom := (swapCheckBlock_dev h1).geom
    cases ok with
    | true =>
      rw [if_pos rfl, run_modify_bind] at h2
      obtain ⟨-, rfl⟩ := run_pure_iff.1 h2
      exact hs
    | false =>
      rw [if_neg (by simp), run_modify_bind, run_get_bind] at h2
      split at h2
      · obtain ⟨-, rfl⟩ := run_pure_iff.1 h2
        exact hs
      · rename_i j hj
        have hrest := ih h2 (firstZeroBit_some hj).1
        exact hs.trans (hg ▸ hrest)

theorem swapAllocNewBlock_sends {a : Option ℕ} (h : (swapAllocNewBlock E).run s = some (a, s')) :
    Sends (Of [.block] s.geom) s s' := by
  unfold swapAllocNewBlock at h
  rw [run_get_bind] at h
  split at h
  · obtain ⟨-, rfl⟩ := run_pure_iff.1 h
    exact .refl _
  · rename_i i hi
    exact swapAllocLoop_sends h (firstZeroBit_some hi).1

theorem flushSwapHead_sends {a : Bool} (h : (flushSwapHead E).run s = some (a, s')) :
    Sends (Of [.head] s.geom) s s' := by
  unfold flushSwapHead at h
  rw [run_get_bind] at h
  dsimp only at h
  rw [run_set_bind] at h
  obtain ⟨b, s₁, h1, h2⟩ := run_bind_iff.1 h
  have of_head : ∀ {c : Sent} {x : ℕ}, HeadArea s.geom (x % 2 ^ 32) →
      c.writer = .head ∧ c.lba = x % 2 ^ 32 ∧ c.count = 1 % 2 ^ 16 → Of [.head] s.geom c := by
    rintro c x hx ⟨h1, h2, h3⟩
    refine ⟨by rw [h1]; exact List.mem_cons_self, ?_⟩
    unfold Tidy
    rw [h1, h2]
    exact ⟨hx, h3⟩
  have hs1 := (hdWriteSector_sends h1).mono fun c hc => of_head (Or.inl rfl) hc
  have hs2 := (hdWriteSector_sends h2).mono fun c hc => of_head (Or.inr rfl) hc
  exact Quiet.trans_sends (by exact ⟨rfl, rfl⟩) (hs1.trans hs2)

/-- The skipping loop writes from `sect` on, and stops before the sector it returns. -/
theorem writeSkip_sends {buffer : Sector} {limit : ℕ} :
    ∀ {fuel sect t : ℕ} {s s' : World}, (writeSkip E buffer limit fuel sect).run s = some (t, s') →
      Sends (fun c => c.writer = .table ∧ c.count = 1 ∧ ∃ k, sect ≤ k ∧ k < t ∧ c.lba = k % 2 ^ 32) s s' := by
  intro fuel
  induction fuel with
  | zero =>
    intro sect t s s' h
    unfold writeSkip at h
    obtain ⟨ok, s₁, h1, h2⟩ := run_bind_iff.1 h
    obtain ⟨rfl, rfl⟩ : t = sect + 1 ∧ s' = s₁ := by split at h2 <;> exact run_pure_iff.1 h2
    exact (hdWriteSector_sends h1).mono fun c hc => ⟨hc.1, hc.2.2, sect, le_rfl, Nat.lt_succ_self _, hc.2.1⟩
  | succ fuel ih =>
    intro sect t s s' h
    have hlt := (writeSkip_dev h).2.1
    unfold writeSkip at h
    obtain ⟨ok, s₁, h1, h2⟩ := run_bind_iff.1 h
    have hs := (hdWriteSector_sends h1).mono (B := fun c => c.writer = .table ∧ c.count = 1 ∧
      ∃ k, sect ≤ k ∧ k < t ∧ c.lba = k % 2 ^ 32) fun c hc => ⟨hc.1, hc.2.2, sect, le_rfl, hlt, hc.2.1⟩
    split at h2
    · obtain ⟨-, rfl⟩ := run_pure_iff.1 h2
      exact hs
    · refine hs.trans ((ih h2).mono ?_)
      rintro c ⟨hw, hc, k, h3, h4, h5⟩
      exact ⟨hw, hc, k, by omega, h4, h5⟩

theorem of_table {g : Geom} {c : Sent} {n : ℕ} (hn : n ≤ 300) (hw : c.writer = .table) (hc : c.count = 1)
    (ha : TableArea g n c.lba) : Of [.table] g c := by
  refine ⟨by rw [hw]; exact List.mem_cons_self, ?_⟩
  unfold Tidy
  rw [hw]
  exact ⟨ha.mono hn, hc⟩

theorem flushTableSector_sends {buffer : Sector} {sect back n : ℕ} {r : ℕ × ℕ}
    (h : (flushTableSector E buffer sect back).run s = some (r, s')) (hn : n ≤ 267)
    (hs : s.core.sectorTable ≤ sect) (hb : s.core.sectorReserveStart + swapTableBackupOffset ≤ back)
    (hs' : sect ≤ s.core.sectorTable + 32 + n)
    (hb' : back ≤ s.core.sectorReserveStart + swapTableBackupOffset + 32 + n) :
    Sends (Of [.table] s.geom) s s' := by
  obtain ⟨-, -, hle1, -, hle2⟩ := flushTableSector_dev h hs hb hs' hb'
  unfold flushTableSector at h
  rw [run_get_bind] at h
  dsimp only at h
  obtain ⟨t, s₁, h1, h2⟩ := run_bind_iff.1 h
  obtain ⟨u, s₂, h3, h4⟩ := run_bind_iff.1 h2
  obtain ⟨rfl, rfl⟩ := run_pure_iff.1 h4
  refine ((writeSkip_sends h1).mono ?_).trans ((writeSkip_sends h3).mono ?_)
  · rintro c ⟨hw, hc, k, ha, hb, hk⟩
    refine of_table le_rfl hw hc (Or.inl ⟨k - s.core.sectorTable, by omega, ?_⟩)
    rw [hk, show s.geom.table = s.core.sectorTable from rfl, Nat.add_sub_cancel' (by omega)]
  · rintro c ⟨hw, hc, k, ha, hb', hk⟩
    refine of_table le_rfl hw hc (Or.inr ⟨k - (s.core.sectorReserveStart + swapTableBackupOffset), by omega, ?_⟩)
    rw [hk, show s.geom.reserve = s.core.sectorReserveStart from rfl, Nat.add_sub_cancel' (by omega)]

theorem flushTableLoop_sends : ∀ {ps : List ℕ} {i n : ℕ} {buffer : Sector} {sect back : ℕ} {s s' : World}
    {u : PUnit}, (flushTableLoop E ps i buffer sect back).run s = some (u, s') → n + ps.length ≤ 267 →
      s.core.sectorTable ≤ sect → s.core.sectorReserveStart + swapTableBackupOffset ≤ back →
      sect ≤ s.core.sectorTable + 32 + n →
      back ≤ s.core.sectorReserveStart + swapTableBackupOffset + 32 + n → Sends (Of [.table] s.geom) s s' := by
  intro ps
  induction ps with
  | nil =>
    intro i n buffer sect back s s' u h hn hs hb hs' hb'
    unfold flushTableLoop at h
    split at h
    · obtain ⟨r, s₁, h1, h2⟩ := run_bind_iff.1 h
      obtain ⟨-, rfl⟩ := run_pure_iff.1 h2
      exact flushTableSector_sends h1 hn hs hb hs' hb'
    · obtain ⟨-, rfl⟩ := run_pure_iff.1 h
      exact .refl _
  | cons p ps ih =>
    intro i n buffer sect back s s' u h hn hs hb hs' hb'
    simp only [List.length_cons] at hn
    unfold flushTableLoop at h
    rw [run_get_bind] at h
    dsimp only at h
    rw [run_set_bind] at h
    split at h
    · obtain ⟨r, s₁, h1, h2⟩ := run_bind_iff.1 h
      obtain ⟨hd, l1, l2, l3, l4⟩ := flushTableSector_dev h1 hs hb hs' hb'
      have hsec := flushTableSector_sends h1 (by omega) hs hb hs' hb'
      have hg : s₁.geom = s.geom := hd.geom
      have ht : s₁.core.sectorTable = s.core.sectorTable := congrArg Geom.table hg
      have hr : s₁.core.sectorReserveStart = s.core.sectorReserveStart := congrArg Geom.reserve hg
      have l1' : sect < r.1 := l1
      have l2' : r.1 ≤ s.core.sectorTable + 33 + n := l2
      have l3' : back < r.2 := l3
      have l4' : r.2 ≤ s.core.sectorReserveStart + swapTableBackupOffset + 33 + n := l4
      have hrest := ih (n := n + 1) h2 (by omega) (by rw [ht]; omega) (by rw [hr]; omega) (by rw [ht]; omega)
        (by rw [hr]; omega)
      rw [hg] at hrest
      exact Quiet.trans_sends (by exact ⟨rfl, rfl⟩) (Sends.trans hsec hrest)
    · have hrest := ih (n := n) h (by omega) hs hb hs' hb'
      exact Quiet.trans_sends (by exact ⟨rfl, rfl⟩) hrest

theorem flushSwapInfoTable_sends {a : Bool} (h : (flushSwapInfoTable E).run s = some (a, s'))
    (hn : s.core.infoList.length ≤ 257) : Sends (Of [.table] s.geom) s s' := by
  unfold flushSwapInfoTable at h
  rw [run_get_bind] at h
  obtain ⟨u, s₁, h1, h2⟩ := run_bind_iff.1 h
  obtain ⟨-, rfl⟩ := run_pure_iff.1 h2
  exact flushTableLoop_sends (n := 0) h1 (by omega) le_rfl le_rfl (by omega) (by omega)

theorem scsiSwapLogPush_sends {type result : BitVec 8} {src dst : BitVec 64} {count : BitVec 16} {a : Bool}
    (h : (scsiSwapLogPush E type result src dst count).run s = some (a, s')) : Sends (Of [.log] s.geom) s s' := by
  unfold scsiSwapLogPush at h
  rw [run_get_bind] at h
  split at h
  · exact (run_oops h).elim
  rename_i r hr
  obtain ⟨item, s₁, h1, h2⟩ := run_bind_iff.1 h
  obtain rfl := scsiSwapLogItemInit_run h1
  obtain ⟨ok, s₂, h3, h4⟩ := run_bind_iff.1 h2
  have hcap0 : r.itemCap ∈ s₁.geom.logCap := by simp [World.geom, hr]
  have of_log : ∀ {c : Sent} {x : ℕ}, LogArea s₁.geom (x % 2 ^ 32) →
      c.writer = .log ∧ c.lba = x % 2 ^ 32 ∧ c.count = 1 % 2 ^ 16 → Of [.log] s₁.geom c := by
    rintro c x hx ⟨h1, h2, h3⟩
    refine ⟨by rw [h1]; exact List.mem_cons_self, ?_⟩
    unfold Tidy
    rw [h1, h2]
    exact ⟨hx, h3⟩
  unfold scsiSwapLogUpdateData at h3
  split at h3
  · exact (run_oops h3).elim
  rename_i slot r' hp
  obtain ⟨hcap, hslot⟩ := Cspring.push_cap hp
  rw [run_modify_bind, run_get_bind] at h3
  have hdata : Sends (Of [.log] s₁.geom) s₁ s₂ := by
    refine Quiet.trans_sends ?_ ((hdWriteSector_sends h3).mono fun c hc =>
      of_log ⟨r.itemCap, hcap0, Or.inr ⟨slot, hslot, rfl⟩⟩ hc)
    exact ⟨rfl, rfl⟩
  split at h4
  · unfold scsiSwapLogUpdateHead at h4
    rw [run_get_bind] at h4
    split at h4
    · exact (run_oops h4).elim
    dsimp only at h4
    rw [run_set_bind] at h4
    have hpos : s₂.log.sectorHead = s₁.geom.logHead := congrArg Geom.logHead (hdWriteSector_dev h3).geom
    refine hdata.trans (Quiet.trans_sends ?_ ((hdWriteSector_sends h4).mono fun c hc => of_log ?_ hc))
    · exact ⟨rfl, rfl⟩
    · exact ⟨r.itemCap, hcap0, Or.inl (by rw [hpos])⟩
  · obtain ⟨-, rfl⟩ := run_pure_iff.1 h4
    exact hdata

/-! ## Mappings -/

theorem copyAround_geom {p sector off len : ℕ} {u : PUnit}
    (h : (copyAround E p sector off len).run s = some (u, s')) : s'.geom = s.geom := by
  unfold copyAround at h
  split at h
  · obtain ⟨r, s₁, h1, h2⟩ := run_bind_iff.1 h
    have hg : s₁.geom = s.geom := (hdReadSector_dev (A := fun _ => False) h1).geom
    obtain rfl := run_modify_iff.1 h2
    exact hg
  · obtain ⟨-, rfl⟩ := run_pure_iff.1 h
    rfl

theorem swapCreate'_sends {p src : ℕ} {off len : ℤ} {a : Bool}
    (h : (swapCreate' E p src off len).run s = some (a, s')) :
    s'.geom = s.geom ∧ Sends (Of [.block] s.geom) s s' := by
  unfold swapCreate' at h
  obtain ⟨o, s₁, h1, h2⟩ := run_bind_iff.1 h
  obtain ⟨b, hal⟩ := swapAllocNewBlock_alloc h1
  have hg : s₁.geom = s.geom := hal.upd.geom
  have hs := swapAllocNewBlock_sends h1
  cases o with
  | none =>
    obtain ⟨-, rfl⟩ := run_pure_iff.1 h2
    exact ⟨hg, hs⟩
  | some index =>
    dsimp only at h2
    obtain ⟨u, s₂, h3, h4⟩ := run_bind_iff.1 h2
    obtain ⟨u, s₃, h5, h6⟩ := run_bind_iff.1 h4
    rw [run_modify_bind] at h6
    obtain ⟨-, rfl⟩ := run_pure_iff.1 h6
    have hcopy : Sends (Of [.block] s.geom) s₁ s₃ :=
      (copyAround_quiet _ _ _ _ _ _ _ h3).trans_sends (copyAround_quiet _ _ _ _ _ _ _ h5).sends
    exact ⟨((copyAround_geom h5).trans (copyAround_geom h3)).trans hg, hs.trans hcopy⟩

theorem swapCreateTry_sends {start count : ℕ} {a : ℕ ⊕ LogCreateFailed}
    (h : (swapCreateTry E start count).run s = some (a, s')) : Sends (Of [.block, .head] s.geom) s s' := by
  unfold swapCreateTry at h
  rw [run_get_bind] at h
  split at h
  · obtain ⟨-, rfl⟩ := run_pure_iff.1 h
    exact .refl _
  obtain ⟨o, s₁, h1, h2⟩ := run_bind_iff.1 h
  have hq := swapAllocInfo_quiet _ _ _ h1
  rcases swapAllocInfo_spec (A := fun _ => False) h1 with ⟨rfl, -⟩ | ⟨rfl, hu⟩
  · obtain ⟨-, rfl⟩ := run_pure_iff.1 h2
    exact hq.sends
  dsimp only at h2
  obtain ⟨ok, s₂, h3, h4⟩ := run_bind_iff.1 h2
  have hg1 : s₁.geom = s.geom := hu.geom
  obtain ⟨hg2, hc⟩ := swapCreate'_sends h3
  rw [hg1] at hg2 hc
  have hsend := hq.trans_sends (hc.mono (B := Of [.block, .head] s.geom) fun c hc => hc.mono (by simp))
  cases ok with
  | false =>
    obtain ⟨-, rfl⟩ := run_pure_iff.1 h4
    exact hsend
  | true =>
    rw [if_pos rfl] at h4
    obtain ⟨ok, s₃, h5, h6⟩ := run_bind_iff.1 h4
    have hh := flushSwapHead_sends h5
    rw [hg2] at hh
    have hsend' := hsend.trans (hh.mono fun c hc => hc.mono (by simp))
    cases ok with
    | false =>
      rw [if_neg (by simp), run_modify_bind] at h6
      obtain ⟨-, rfl⟩ := run_pure_iff.1 h6
      exact hsend'
    | true =>
      obtain ⟨-, rfl⟩ := run_pure_iff.1 h6
      exact hsend'

theorem swapCreate_sends {start count : ℕ} {a : Option ℕ} (h : (swapCreate E start count).run s = some (a, s')) :
    Sends (Of [.block, .head, .log] s.geom) s s' := by
  unfold swapCreate at h
  obtain ⟨r, s₁, h1, h2⟩ := run_bind_iff.1 h
  have hg : s₁.geom = s.geom := by
    rcases (swapCreateTry_spec h1).1 with ⟨-, w, hk, hu⟩ | ⟨-, b, index, d, hm, -⟩
    · exact hu.geom.trans hk.geom
    · exact hm.upd.geom
  have htry := (swapCreateTry_sends h1).mono (B := Of [.block, .head, .log] s.geom) fun c hc =>
    hc.mono fun w hw => by simp at hw ⊢; tauto
  have hlog : ∀ {ty re sr ds co a t}, (scsiSwapLogPush E ty re sr ds co).run s₁ = some (a, t) →
      Sends (Of [.block, .head, .log] s.geom) s₁ t := by
    intro ty re sr ds co a t h
    have hpush := scsiSwapLogPush_sends h
    rw [hg] at hpush
    exact hpush.mono fun c hc => hc.mono (by simp)
  cases r with
  | inr e =>
    obtain ⟨x, s₂, h3, h4⟩ := run_bind_iff.1 h2
    obtain ⟨-, rfl⟩ := run_pure_iff.1 h4
    exact htry.trans (hlog h3)
  | inl p =>
    dsimp only at h2
    rw [run_get_bind] at h2
    obtain ⟨x, s₂, h3, h4⟩ := run_bind_iff.1 h2
    obtain ⟨-, rfl⟩ := run_pure_iff.1 h4
    exact htry.trans (hlog h3)

theorem SwapTable.InPlace.assign {g : Geom} {t : SwapTable} (hs : t.secSize = 128) {index : ℕ} (hi : index < 1024)
    (hg : g.data + 128 * maxSwapBlock ≤ 2 ^ 64) : (t.assign g.data index).InPlace g := by
  have hswap : (t.assign g.data index).swapSec.toNat = g.data + 128 * index := by
    show (BitVec.ofNat 64 (g.data + 128 * index)).toNat = _
    rw [BitVec.toNat_ofNat, Nat.mod_eq_of_lt (by simp only [maxSwapBlock] at hg; omega)]
  refine ⟨hs, by omega, ?_⟩
  rw [hswap]
  simp only [maxSwapBlock]
  omega

/-- The entry at `p` is seen in place exactly if it is. -/
theorem inPlace_view {p : ℕ} : (s.view.info p).table.InPlace s.geom ↔ (s.heap p).table.InPlace s.geom :=
  ⟨fun h => ⟨h.size, h.lower, h.upper⟩, fun h => ⟨h.size, h.lower, h.upper⟩⟩

theorem swapWrite'_sends {p start count : ℕ} {buf : ℕ → Sector} {a : Bool}
    (h : (swapWrite' E p start count buf).run s = some (a, s')) (hp : (s.heap p).table.InPlace s.geom) :
    Sends (Of [.block] s.geom) s s' := by
  unfold swapWrite' at h
  rw [run_get_bind] at h
  split at h
  · exact (run_oops h).elim
  rename_i d hd
  dsimp only at h
  rw [run_set_bind] at h
  have hflush := flushSwapInfoData_sends h (by
    show (Function.update s.heap p _ p).table.InPlace s.geom
    rw [Function.update_self]
    exact hp)
  exact Quiet.trans_sends (by exact ⟨rfl, rfl⟩) hflush

theorem reread_quiet (p : ℕ) : Carries Quiet ((List.range 128).forM (rereadSector E p)) :=
  Carries.forM Quiet.refl Quiet.trans (rereadSector_quiet p) _

theorem swapRecreate_sends {p : ℕ} {a : Bool} (h : (swapRecreate E p).run s = some (a, s'))
    (hp : (s.heap p).table.secSize = 128) (hl : s.core.infoList.length ≤ 256)
    (hg : s.geom.data + 128 * maxSwapBlock ≤ 2 ^ 64) : Sends (Of [.block, .table, .head] s.geom) s s' := by
  unfold swapRecreate at h
  rw [run_get_bind] at h
  split at h
  · obtain ⟨-, rfl⟩ := run_pure_iff.1 h
    exact .refl _
  obtain ⟨o, s₁, h1, h2⟩ := run_bind_iff.1 h
  obtain ⟨b, hal⟩ := swapAllocNewBlock_alloc h1
  have hs1 := (swapAllocNewBlock_sends h1).mono (B := Of [.block, .table, .head] s.geom)
    fun c hc => hc.mono (by simp)
  cases o with
  | none =>
    obtain ⟨-, rfl⟩ := run_pure_iff.1 h2
    exact hs1
  | some index =>
    obtain ⟨hi, -, -⟩ := hal.fresh index rfl
    dsimp only at h2
    obtain ⟨u, s₂, h3, h4⟩ := run_bind_iff.1 h2
    rw [run_modify_bind] at h4
    obtain ⟨ok, s₄, h5, h6⟩ := run_bind_iff.1 h4
    obtain ⟨d, hr⟩ := reread_spec (A := FreeArea s.view) h3
    have hmem := hal.upd.trans hr
    have hv2 : s₂.view = (s.view.setBitmap b).setData p d := by rw [hr.view, hal.upd.view]
    have hg2 : s₂.geom = s.geom := congrArg View.geom hv2
    have hl2 : s₂.core.infoList = s.core.infoList := congrArg View.list hv2
    have hsize : (s₂.heap p).table.secSize = 128 := by
      have hinfo : s₂.view.info p = SwapInfo.strip ⟨(s.view.info p).table, some d⟩ := by
        rw [hv2]
        exact View.setInfo_info_self ..
      exact (congrArg (fun i => i.table.secSize) hinfo).trans hp
    have hdata : s₂.core.sectorData = s.geom.data := congrArg Geom.data hg2
    set s₃ := s₂.setInfo p { s₂.heap p with table := (s₂.heap p).table.assign s₂.core.sectorData index } with hs3
    have hq : Sends (Of [.block, .table, .head] s.geom) s₁ s₃ := (reread_quiet p _ _ _ h3).sends
    have hg3 : s₃.geom = s.geom := hg2
    -- the entry names the new block before it is written
    have hplace : (s₃.heap p).table.InPlace s₃.geom := by
      have hself : (s₃.heap p).table = (s₂.heap p).table.assign s₂.core.sectorData index := by
        rw [hs3]
        show (Function.update s₂.heap p _ p).table = _
        rw [Function.update_self]
      rw [hself, hg3, hdata]
      exact .assign hsize hi hg
    -- the block, the tables and the head, as far as the flushes get
    have hflush : Sends (Of [.block, .table, .head] s.geom) s₃ s₄ := by
      obtain ⟨ok1, t₁, g1, g2⟩ := run_bind_iff.1 h5
      have hf1 := flushSwapInfoData_sends g1 hplace
      rw [hg3] at hf1
      replace hf1 := hf1.mono (B := Of [.block, .table, .head] s.geom) fun c hc => hc.mono (by simp)
      have hv1 := (flushSwapInfoData_dev g1).view
      have hgt1 : t₁.geom = s.geom := (congrArg View.geom hv1).trans hg3
      have hlt1 : t₁.core.infoList = s.core.infoList := (congrArg View.list hv1).trans hl2
      cases ok1 with
      | false =>
        obtain ⟨-, rfl⟩ := run_pure_iff.1 g2
        exact hf1
      | true =>
        rw [if_pos rfl] at g2
        obtain ⟨ok2, t₂, g3, g4⟩ := run_bind_iff.1 g2
        obtain ⟨rfl, hdv⟩ := flushSwapInfoTable_dev g3
        have hf2 := flushSwapInfoTable_sends g3 (by rw [hlt1]; omega)
        rw [if_pos rfl] at g4
        have hf3 := flushSwapHead_sends g4
        rw [hgt1] at hf2
        rw [hdv.geom, show t₁.view.geom = t₁.geom from rfl, hgt1] at hf3
        exact (hf1.trans (hf2.mono fun c hc => hc.mono (by simp))).trans (hf3.mono fun c hc => hc.mono (by simp))
    have hall := (hs1.trans hq).trans hflush
    cases ok with
    | true =>
      obtain ⟨-, rfl⟩ := run_pure_iff.1 h6
      exact hall
    | false =>
      rw [if_neg (by simp), run_modify_bind] at h6
      obtain ⟨-, rfl⟩ := run_pure_iff.1 h6
      exact hall

/-- A mapping that was moved has its entry in place. -/
theorem swapRecreate_inPlace {p : ℕ} (h : (swapRecreate E p).run s = some (true, s'))
    (hp : (s.heap p).table.secSize = 128)
    (hg : s.geom.data + 128 * maxSwapBlock ≤ 2 ^ 64) : s'.geom = s.geom ∧ (s'.heap p).table.InPlace s'.geom := by
  obtain ⟨-, b, index, d, -, hi, -, -, hu⟩ := (swapRecreate_spec h).resolve_left (by simp)
  have hgeom : s'.geom = s.geom := hu.geom
  refine ⟨hgeom, ?_⟩
  rw [← inPlace_view, hgeom, hu.view]
  unfold View.move
  rw [View.setInfo_info_self]
  have hplace := SwapTable.InPlace.assign (g := s.geom) (t := (s.view.info p).table) hp hi hg
  exact ⟨hplace.size, hplace.lower, hplace.upper⟩

theorem swapWrite_sends {p start count : ℕ} {buf : ℕ → Sector} {r : Ret}
    (h : (swapWrite E p start count buf).run s = some (r, s')) (hp : (s.heap p).table.InPlace s.geom)
    (hl : s.core.infoList.length ≤ 256) (hg : s.geom.data + 128 * maxSwapBlock ≤ 2 ^ 64) :
    Sends (Of [.block, .table, .head] s.geom) s s' := by
  unfold swapWrite at h
  obtain ⟨a, t₁, h1, h2⟩ := run_bind_iff.1 h
  have hs1 := (swapWrite'_sends h1 hp).mono (B := Of [.block, .table, .head] s.geom) fun c hc => hc.mono (by simp)
  cases a with
  | true =>
    obtain ⟨-, rfl⟩ := run_pure_iff.1 h2
    exact hs1
  | false =>
    rw [if_neg (by simp)] at h2
    obtain ⟨a, t₂, h3, h4⟩ := run_bind_iff.1 h2
    obtain ⟨d, hd, hu1⟩ := swapWrite'_spec h1
    have hg1 : t₁.geom = s.geom := hu1.geom
    have hl1 : t₁.core.infoList = s.core.infoList := congrArg View.list hu1.view
    have hsize : (t₁.heap p).table.secSize = 128 := by
      have hinfo := hu1.info p
      unfold View.setData at hinfo
      rw [View.setInfo_info_self] at hinfo
      exact (congrArg (fun i => i.table.secSize) hinfo).trans hp.size
    have hs2 := swapRecreate_sends h3 hsize (by rw [hl1]; exact hl) (by rw [hg1]; exact hg)
    rw [hg1] at hs2
    cases a with
    | false =>
      obtain ⟨-, rfl⟩ := run_pure_iff.1 h4
      exact hs1.trans hs2
    | true =>
      rw [if_pos rfl] at h4
      obtain ⟨a, t₃, h5, h6⟩ := run_bind_iff.1 h4
      have hs' : s' = t₃ := by
        cases a <;> exact (run_pure_iff.1 h6).2
      obtain ⟨hg2, hplace⟩ := swapRecreate_inPlace h3 hsize (by rw [hg1]; exact hg)
      rw [hg1] at hg2
      have hs3 := swapWrite'_sends h5 hplace
      rw [hg2] at hs3
      rw [hs']
      exact (hs1.trans hs2).trans (hs3.mono fun c hc => hc.mono (by simp))

/-! ## Rounds and requests -/

/-- The listed entries are in place. -/
structure View.InPlace (v : View) : Prop where
  size : v.geom.data + 128 * maxSwapBlock ≤ 2 ^ 64
  num : v.num = v.list.length
  room : v.list.length ≤ 256
  old : ∀ p ∈ v.list, p < v.brk
  info : ∀ p ∈ v.list, (v.info p).table.InPlace v.geom

section

variable {v w : View}

theorem View.InPlace.keep (h : v.InPlace) (hk : v.Keep w) : w.InPlace := by
  refine ⟨by rw [hk.geom]; exact h.size, by rw [hk.num, hk.list]; exact h.num, by rw [hk.list]; exact h.room,
    ?_, ?_⟩
  · intro p hp
    exact (h.old p (hk.list ▸ hp)).trans_le hk.brk
  · intro p hp
    rw [hk.list] at hp
    rw [hk.info p (h.old p hp), hk.geom]
    exact h.info p hp

theorem View.InPlace.sameBut (h : v.InPlace) {p : ℕ} (hs : v.SameBut w p)
    (hp : p ∈ v.list → (w.info p).table.InPlace v.geom) : w.InPlace := by
  refine ⟨by rw [hs.geom]; exact h.size, by rw [hs.num, hs.list]; exact h.num, by rw [hs.list]; exact h.room,
    ?_, ?_⟩
  · intro q hq
    rw [hs.brk]
    exact h.old q (hs.list ▸ hq)
  · intro q hq
    rw [hs.list] at hq
    rw [hs.geom]
    by_cases hqp : q = p
    · rw [hqp] at hq ⊢
      exact hp hq
    · rw [hs.info q hqp]
      exact h.info q hq

theorem View.InPlace.create (h : v.InPlace) {b : BitVec 1024} {src index : ℕ} {d : Block} (hi : index < 1024)
    (hroom : v.num < maxSwapBlockForUse) : (v.create b src index d).InPlace := by
  have hplace : (entryFor v.geom.data src index).InPlace v.geom := .assign rfl hi h.size
  have hk : v.Keep ((v.setBitmap v.bitmap).alloc ⟨entryFor v.geom.data src index, some d⟩) :=
    ((View.Keep.refl v).setBitmap (BitsLe.refl _)).alloc _
  refine ⟨h.size, ?_, ?_, ?_, ?_⟩
  · show v.num + 1 = (v.list ++ [v.brk]).length
    rw [List.length_append, h.num]
    rfl
  · show (v.list ++ [v.brk]).length ≤ 256
    have := h.num
    simp only [maxSwapBlockForUse] at hroom
    rw [List.length_append, List.length_singleton]
    omega
  · intro p hp
    show p < v.brk + 1
    rcases List.mem_append.1 (show p ∈ v.list ++ [v.brk] from hp) with hp | hp
    · exact (h.old p hp).trans (Nat.lt_succ_self _)
    · rw [List.mem_singleton.1 hp]
      exact Nat.lt_succ_self _
  · intro p hp
    show ((v.create b src index d).info p).table.InPlace v.geom
    rcases List.mem_append.1 (show p ∈ v.list ++ [v.brk] from hp) with hp | hp
    · rw [View.create_info_old _ _ _ _ _ (h.old p hp)]
      exact h.info p hp
    · rw [List.mem_singleton.1 hp]
      have hself : (v.create b src index d).info v.brk =
          SwapInfo.strip ⟨entryFor v.geom.data src index, some d⟩ :=
        View.setInfo_info_self ..
      rw [hself]
      exact ⟨hplace.size, hplace.lower, hplace.upper⟩

theorem Wrote.inPlace {p start count : ℕ} {buf : ℕ → Sector} {r : Ret} (h : Wrote E s p start count buf r w)
    (hv : s.view.InPlace) (hp : p ∈ s.view.list) : w.InPlace := by
  have hold := hv.info p hp
  have moved : ∀ {b : BitVec 1024} {index : ℕ} {d : Block}, index < 1024 → (s.view.move p b index d).InPlace := by
    intro b index d hi
    refine hv.sameBut (s.view.move_sameBut p b index d) fun _ => ?_
    have := SwapTable.InPlace.assign hold.size hi hv.size
    unfold View.move
    rw [View.setInfo_info_self]
    exact ⟨this.size, this.lower, this.upper⟩
  have stayed : ∀ (b : BitVec 1024) (d : Block), ((s.view.setBitmap b).setData p d).InPlace := by
    intro b d
    refine hv.sameBut (s.view.setData_sameBut p b d) fun _ => ?_
    unfold View.setData
    rw [View.setInfo_info_self]
    exact ⟨hold.size, hold.lower, hold.upper⟩
  cases h with
  | done hd => exact stayed s.view.bitmap _
  | stuck _ _ => exact stayed _ _
  | moved _ _ hi _ _ => exact moved hi
  | lost _ _ hi _ _ => exact moved hi
  | cut _ _ _ _ _ hi _ _ => exact moved hi

theorem WriteStep.inPlace {g : Seg} {src : ℕ → Sector} {r : Ret} (h : WriteStep E s g src r s')
    (hv : s.view.InPlace) : s'.view.InPlace := by
  cases h with
  | hit hp hw hu => rw [hu.view]; exact hw.inPlace hv (View.find_some hp).1
  | direct hn hu hd => rw [hu.view]; exact hv
  | failed hn hk hu => rw [hu.view]; exact hv.keep hk
  | created hn hroom hb hi hfree hbit hseg hcopy hu => rw [hu.view]; exact hv.create hi hroom

theorem ReadStep.inPlace {g : Seg} {buf : ℕ → Sector} {r : Ret × (ℕ → Sector)} (h : ReadStep E s g buf r s')
    (hv : s.view.InPlace) : s'.view.InPlace := by
  cases h with
  | hit hp hd hbuf => exact hv
  | direct hn hu hbuf => rw [hu.view]; exact hv
  | failed hn hk hu => rw [hu.view]; exact hv.keep hk
  | created hn hroom hb hi hfree hbit hseg hout hbuf hu => rw [hu.view]; exact hv.create hi hroom

theorem WriteStep.geom {g : Seg} {src : ℕ → Sector} {r : Ret} (h : WriteStep E s g src r s') :
    s'.geom = s.geom := by
  cases h with
  | hit hp hw hu => exact hu.geom.trans hw.sameBut.geom
  | direct hn hu hd => exact hu.geom
  | failed hn hk hu => exact hu.geom.trans hk.geom
  | created hn hroom hb hi hfree hbit hseg hcopy hu => exact hu.geom

theorem ReadStep.geom {g : Seg} {buf : ℕ → Sector} {r : Ret × (ℕ → Sector)} (h : ReadStep E s g buf r s') :
    s'.geom = s.geom := by
  cases h with
  | hit hp hd hbuf => rfl
  | direct hn hu hbuf => exact hu.geom
  | failed hn hk hu => exact hu.geom.trans hk.geom
  | created hn hroom hb hi hfree hbit hseg hout hbuf hu => exact hu.geom

end

theorem repairAndCreate_sends {start count : ℕ} {a : Option ℕ}
    (h : (repairAndCreate E start count).run s = some (a, s')) :
    Sends (Of [.block, .head, .log] s.geom) s s' := by
  unfold repairAndCreate at h
  obtain ⟨x, s₁, h1, h2⟩ := run_bind_iff.1 h
  have hq := swapRepairSuccessiveSectors_quiet _ _ _ h1
  have hg : s₁.geom = s.geom := (swapRepairSuccessiveSectors_dev (A := fun _ => False) h1).geom
  rw [run_get_bind] at h2
  split at h2
  · obtain ⟨-, rfl⟩ := run_pure_iff.1 h2
    exact hq.sends
  · have hc := swapCreate_sends h2
    rw [hg] at hc
    exact hq.trans_sends hc

/-- A mapping that was made has its entry in place. -/
theorem repairAndCreate_inPlace {start count p : ℕ}
    (h : (repairAndCreate E start count).run s = some (some p, s'))
    (hg : s.geom.data + 128 * maxSwapBlock ≤ 2 ^ 64) :
    s'.geom = s.geom ∧ s'.core.infoList = s.core.infoList ∧ (s'.heap p).table.InPlace s'.geom := by
  obtain ⟨hres, hbrk⟩ := repairAndCreate_spec h
  obtain ⟨-, b, index, d, hm, -⟩ := hres.resolve_left (by simp)
  obtain rfl := hbrk p rfl
  obtain ⟨hkeep, hinfo⟩ := hm.entry
  have hplace : (entryFor s.geom.data (swapSectorAlign start) index).InPlace s.geom := .assign rfl hm.fresh.1 hg
  refine ⟨hkeep.geom, hkeep.list, inPlace_view.1 ?_⟩
  rw [show s'.geom = s.geom from hkeep.geom, hinfo]
  exact ⟨hplace.size, hplace.lower, hplace.upper⟩

theorem enterCreated_sends {p : ℕ} {a : Bool} (h : (enterCreated E p).run s = some (a, s'))
    (hl : s.core.infoList.length ≤ 256) : Sends (Of [.table] s.geom) s s' := by
  unfold enterCreated at h
  rw [run_modify_bind] at h
  obtain ⟨ok, s₁, h1, h2⟩ := run_bind_iff.1 h
  obtain ⟨rfl, -⟩ := flushSwapInfoTable_dev h1
  have hs := flushSwapInfoTable_sends h1 (by
    show (s.core.infoList ++ [p]).length ≤ 257
    rw [List.length_append, List.length_singleton]
    omega)
  rw [if_pos rfl, run_modify_bind] at h2
  obtain ⟨-, rfl⟩ := run_pure_iff.1 h2
  exact Quiet.trans_sends (by exact ⟨rfl, rfl⟩) hs

theorem Sends.tidy {ws : List Writer} {g : Geom} (h : Sends (Of ws g) s s') : Sends (Tidy g) s s' :=
  h.mono fun _ hc => hc.2

theorem dropCreated_quiet (p : ℕ) : Carries Quiet (dropCreated p) := quiet_set fun _ => ⟨rfl, rfl⟩

/-- **In a round of a write, every part of the driver writes where its data belongs.** -/
theorem coreWriteBlock_sends {bad : ℤ} {g : Seg} {buf : ℕ → Sector} {r : Ret}
    (h : (coreWriteBlock E bad g buf).run s = some (r, s')) (hv : s.view.InPlace) : Sends (Tidy s.geom) s s' := by
  unfold coreWriteBlock at h
  rw [run_get_bind] at h
  dsimp only at h
  split at h
  · -- mapped
    rename_i p hp
    obtain ⟨r', s₁, h1, h2⟩ := run_bind_iff.1 h
    have hs' : s' = s₁ := by
      cases r' with
      | ok => exact (run_pure_iff.1 h2).2
      | err => exact (run_pure_iff.1 h2).2
      | dirty =>
        dsimp only at h2
        split at h2 <;> exact (run_pure_iff.1 h2).2
    rw [hs']
    exact (swapWrite_sends h1 (inPlace_view.1 (hv.info p (View.find_some (find_view _ ▸ hp)).1))
      hv.room hv.size).tidy
  obtain ⟨done, s₁, h1, h2⟩ := run_bind_iff.1 h
  have hv1 : s₁.view = s.view := (directWrite_spec h1).1.view
  have hg1 : s₁.geom = s.geom := congrArg View.geom hv1
  have hdirect : Sends (Tidy s.geom) s s₁ := by
    split at h1
    · refine (hdWriteSector_sends h1).mono fun c hc => ?_
      unfold Tidy
      rw [hc.1]
      trivial
    · obtain ⟨-, rfl⟩ := run_pure_iff.1 h1
      exact .refl _
  rw [run_get_bind] at h2
  cases done with
  | true =>
    obtain ⟨-, rfl⟩ := run_pure_iff.1 h2
    exact hdirect
  | false =>
    rw [if_neg (by simp)] at h2
    split at h2
    · obtain ⟨-, rfl⟩ := run_pure_iff.1 h2
      exact hdirect
    obtain ⟨o, s₂, h3, h4⟩ := run_bind_iff.1 h2
    have hcreate := (repairAndCreate_sends h3).tidy
    rw [hg1] at hcreate
    cases o with
    | none =>
      obtain ⟨-, rfl⟩ := run_pure_iff.1 h4
      exact hdirect.trans hcreate
    | some p =>
      obtain ⟨hg2, hl2, hplace⟩ := repairAndCreate_inPlace h3 (by rw [hg1]; exact hv.size)
      rw [hg1] at hg2
      have hroom : s₂.core.infoList.length ≤ 256 := by
        rw [hl2, show s₁.core.infoList = s.view.list from congrArg View.list hv1]
        exact hv.room
      dsimp only at h4
      obtain ⟨r', s₃, h5, h6⟩ := run_bind_iff.1 h4
      have hwrite := (swapWrite_sends h5 hplace hroom (by rw [hg2]; exact hv.size)).tidy
      rw [hg2] at hwrite
      have hsofar := (hdirect.trans hcreate).trans hwrite
      cases r' with
      | ok =>
        obtain ⟨ok, s₄, h7, h8⟩ := run_bind_iff.1 h6
        obtain ⟨w, hw, hu⟩ := swapWrite_spec h5
        have hs := hw.sameBut
        have hg3 : s₃.geom = s.geom := (hu.geom.trans hs.geom).trans hg2
        have hl3 : s₃.core.infoList = s₂.core.infoList := (congrArg View.list hu.view).trans hs.list
        have henter := (enterCreated_sends h7 (by rw [hl3]; exact hroom)).tidy
        rw [hg3] at henter
        have hs' : s' = s₄ := by
          split at h8
          · split at h8 <;> exact (run_pure_iff.1 h8).2
          · exact (run_pure_iff.1 h8).2
        rw [hs']
        exact hsofar.trans henter
      | err =>
        obtain ⟨u, s₄, h7, h8⟩ := run_bind_iff.1 h6
        obtain ⟨-, rfl⟩ := run_pure_iff.1 h8
        exact hsofar.trans (dropCreated_quiet _ _ _ _ h7).sends
      | dirty =>
        obtain ⟨u, s₄, h7, h8⟩ := run_bind_iff.1 h6
        obtain ⟨-, rfl⟩ := run_pure_iff.1 h8
        exact hsofar.trans (dropCreated_quiet _ _ _ _ h7).sends

/-- **So do they in a round of a read.** -/
theorem coreReadBlock_sends {bad : ℤ} {g : Seg} {buf : ℕ → Sector} {r : Ret × (ℕ → Sector)}
    (h : (coreReadBlock E bad g buf).run s = some (r, s')) (hv : s.view.InPlace) : Sends (Tidy s.geom) s s' := by
  unfold coreReadBlock at h
  rw [run_get_bind] at h
  split at h
  · -- a mapped block is read from memory
    rename_i p hp
    obtain ⟨buf', s₁, h1, h2⟩ := run_bind_iff.1 h
    obtain ⟨-, rfl⟩ := run_pure_iff.1 h2
    unfold swapRead' at h1
    rw [run_get_bind] at h1
    split at h1
    · exact (run_oops h1).elim
    · obtain ⟨-, rfl⟩ := run_pure_iff.1 h1
      exact .refl _
  obtain ⟨⟨done, buf₁⟩, s₁, h1, h2⟩ := run_bind_iff.1 h
  have hv1 : s₁.view = s.view := (directRead_spec h1).1.view
  have hg1 : s₁.geom = s.geom := congrArg View.geom hv1
  have hdirect : Sends (Tidy s.geom) s s₁ := by
    split at h1
    · obtain ⟨a, s₂, h3, h4⟩ := run_bind_iff.1 h1
      obtain ⟨-, rfl⟩ := run_pure_iff.1 h4
      exact (hdReadSector_quiet _ _ _ _ _ _ h3).sends
    · obtain ⟨-, rfl⟩ := run_pure_iff.1 h1
      exact .refl _
  rw [run_get_bind] at h2
  cases done with
  | true =>
    obtain ⟨-, rfl⟩ := run_pure_iff.1 h2
    exact hdirect
  | false =>
    dsimp only at h2
    rw [if_neg (by simp)] at h2
    split at h2
    · obtain ⟨-, rfl⟩ := run_pure_iff.1 h2
      exact hdirect
    -- the read in place failed: a mapping is made
    obtain ⟨o, s₂, h3, h4⟩ := run_bind_iff.1 h2
    have hcreate := (repairAndCreate_sends h3).tidy
    rw [hg1] at hcreate
    cases o with
    | none =>
      obtain ⟨-, rfl⟩ := run_pure_iff.1 h4
      exact hdirect.trans hcreate
    | some p =>
      obtain ⟨hg2, hl2, hplace⟩ := repairAndCreate_inPlace h3 (by rw [hg1]; exact hv.size)
      rw [hg1] at hg2
      have hroom : s₂.core.infoList.length ≤ 256 := by
        rw [hl2, show s₁.core.infoList = s.view.list from congrArg View.list hv1]
        exact hv.room
      dsimp only at h4
      rw [run_get_bind] at h4
      split at h4
      · exact (run_oops h4).elim
      obtain ⟨ok, s₃, h5, h6⟩ := run_bind_iff.1 h4
      have hflush := (flushSwapInfoData_sends h5 hplace).tidy
      rw [hg2] at hflush
      have hsofar := (hdirect.trans hcreate).trans hflush
      cases ok with
      | true =>
        rw [if_pos rfl] at h6
        obtain ⟨ok, s₄, h7, h8⟩ := run_bind_iff.1 h6
        have hv3 := (flushSwapInfoData_dev h5).view
        have hg3 : s₃.geom = s.geom := (congrArg View.geom hv3).trans hg2
        have hl3 : s₃.core.infoList = s₂.core.infoList := congrArg View.list hv3
        have henter := (enterCreated_sends h7 (by rw [hl3]; exact hroom)).tidy
        rw [hg3] at henter
        have hs' : s' = s₄ := by split at h8 <;> exact (run_pure_iff.1 h8).2
        rw [hs']
        exact hsofar.trans henter
      | false =>
        obtain ⟨u, s₄, h7, h8⟩ := run_bind_iff.1 h6
        obtain ⟨-, rfl⟩ := run_pure_iff.1 h8
        exact hsofar.trans (dropCreated_quiet _ _ _ _ h7).sends

/-- The entries stay in place, and the commands are where they belong. -/
def Orderly (s s' : World) : Prop := s.view.InPlace → s'.view.InPlace ∧ s'.geom = s.geom ∧
    Sends (Tidy s.geom) s s'

theorem orderly_roundRel : RoundRel Orderly := by
  refine ⟨fun s h => ⟨h, rfl, .refl _⟩, fun s t u h1 h2 hs => ?_, fun s n h => ⟨h, rfl, Quiet.sends ⟨rfl, rfl⟩⟩⟩
  obtain ⟨ht, hg, hsend⟩ := h1 hs
  obtain ⟨hu, hg', hsend'⟩ := h2 ht
  rw [hg] at hg' hsend'
  exact ⟨hu, hg', hsend.trans hsend'⟩

theorem serve_orderly {o : Request} {a : Reply} (h : (o.serve E).run s = some (a, s')) : Orderly s s' :=
  serve_rounds orderly_roundRel h
    (fun _ _ _ _ _ _ hb hv => ⟨(coreWriteBlock_step hb).inPlace hv, (coreWriteBlock_step hb).geom,
      coreWriteBlock_sends hb hv⟩)
    fun _ _ _ _ _ _ hb hv => ⟨(coreReadBlock_step hb).inPlace hv, (coreReadBlock_step hb).geom,
      coreReadBlock_sends hb hv⟩

end ScsiSwap
