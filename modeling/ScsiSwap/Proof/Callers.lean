import ScsiSwap.Proof.Rounds
import ScsiSwap.Proof.Total

/-!
# The two callers of `swap_write`

`swap_write` ends in one of three ways: the block took the data, the mapping moved to another block
which took it (`-DATA_MAY_DIRTY`), or it failed. A round of `scsi_swap_core_write` calls it for a
listed mapping and for one it has just created, and only the first call accepts the second ending:

* `coreWriteBlock_served`, `coreWriteBlock_dropped`: a round whose writes all succeed, by the ending
  of the write into a new mapping;
* `new_mappings_kept_iff`: a request whose writes all succeed returns success with its new mappings
  listed and marked, if and only if no new mapping had to be moved.
-/

namespace ScsiSwap

open StateOption

variable {E : Env} {s s' : World} {v w : View} {g : Seg} {src : ℕ → Sector}

/-! ## Listed and marked mappings -/

/-- The mapping at `p` is listed, and its block is marked as used. -/
structure View.Kept (v : View) (p : ℕ) : Prop where
  brk : p < v.brk
  mem : p ∈ v.list
  bit : v.bitmap.getLsbD (v.info p).table.index.toNat = true

theorem View.Kept.setInfo {p q : ℕ} {i : SwapInfo} {b : BitVec 1024} (h : v.Kept p) (hb : BitsLe v.bitmap b)
    (hq : q = p → b.getLsbD i.table.index.toNat = true) : ((v.setBitmap b).setInfo q i).Kept p := by
  refine ⟨h.brk, h.mem, ?_⟩
  by_cases hp : q = p
  · subst hp
    rw [View.setInfo_info_self]
    exact hq rfl
  · rw [View.setInfo_info_of_ne _ _ (Ne.symm hp)]
    exact hb _ h.bit

/-- A `swap_write` that does not fail keeps the mappings listed and marked. -/
theorem Wrote.kept {p q start count : ℕ} {buf : ℕ → Sector} {r : Ret} (h : Wrote E s q start count buf r w)
    (hr : r ≠ .err) (hk : s.view.Kept p) : w.Kept p := by
  cases h with
  | done hd =>
    refine hk.setInfo (BitsLe.refl _) ?_
    rintro rfl
    exact hk.bit
  | @moved _ b index d _ hb hi _ hbit =>
    refine hk.setInfo hb ?_
    rintro rfl
    have h := move_index (v := s.view) (p := q) (b := b) hi (d := d)
    unfold View.move at h
    rw [View.setInfo_info_self] at h
    exact (congrArg b.getLsbD h).trans hbit
  | stuck => exact absurd rfl hr
  | lost => exact absurd rfl hr
  | cut => exact absurd rfl hr

/-- The mapping made by a round is listed and marked. -/
theorem View.create_kept (v : View) {b : BitVec 1024} {src index : ℕ} (d : Block) (hi : index < 1024)
    (hbit : b.getLsbD index = true) : (v.create b src index d).Kept v.brk := by
  refine ⟨Nat.lt_succ_self _, List.mem_append_right _ (List.mem_singleton.2 rfl), ?_⟩
  rw [View.create_info_new]
  show b.getLsbD (entryFor v.geom.data src index).index.toNat = true
  rw [entryFor_index hi]
  exact hbit

/-- A round that does not fail keeps the mappings listed and marked. -/
theorem WriteStep.kept {p : ℕ} {r : Ret} (h : WriteStep E s g src r s') (hr : r ≠ .err) (hk : s.view.Kept p) :
    s'.view.Kept p := by
  cases h with
  | hit hp hw hu =>
    rw [hu.view]
    refine hw.kept ?_ hk
    rintro rfl
    exact hr rfl
  | direct hn hu hd =>
    rw [hu.view]
    exact hk
  | failed => exact absurd rfl hr
  | created hn hroom hb hi hfree hbit hseg hcopy hu =>
    rw [hu.view]
    refine ⟨Nat.lt_succ_of_lt hk.brk, List.mem_append_left _ hk.mem, ?_⟩
    rw [View.create_info_old _ _ _ _ _ hk.brk]
    exact hb _ hk.bit

/-! ## A round that serves its block -/

/-- The block of the segment has no mapping and was not written in place: it is known to be bad, or
the direct write failed. -/
def Unwritten (E : Env) (bad : ℤ) (g : Seg) (src : ℕ → Sector) (t t₁ : World) : Prop :=
  t.swapFindSwapInfo g.bStart = none ∧ (bad = g.blk ∧ t₁ = t ∨
    bad ≠ g.blk ∧ (hdWriteSectorRetry E .user g.sStart g.sCount src).run t = some (false, t₁) ∧
      t₁.core.deviceDead = 0)

/-- A round that starts in `t` creates the mapping at `p`; `t₁` is the state `swap_create` leaves. -/
def Creates (E : Env) (bad : ℤ) (g : Seg) (src : ℕ → Sector) (t : World) (p : ℕ) (t₁ : World) : Prop :=
  ∃ t₀, Unwritten E bad g src t t₀ ∧ (repairAndCreate E g.sStart g.sCount).run t₀ = some (some p, t₁)

/-- The block of the segment is served through a mapping, listed or new, which `swap_write` does not
fail to write, or the direct write succeeds. -/
inductive RoundServed (E : Env) (bad : ℤ) (g : Seg) (src : ℕ → Sector) (t : World) : Prop
  | listed {p r t₁} (hp : t.swapFindSwapInfo g.bStart = some p)
      (hw : (swapWrite E p g.sStart g.sCount src).run t = some (r, t₁)) (hr : r ≠ .err)
  | direct {t₁} (hp : t.swapFindSwapInfo g.bStart = none) (hb : bad ≠ g.blk)
      (hw : (hdWriteSectorRetry E .user g.sStart g.sCount src).run t = some (true, t₁))
  | created {p r t₁ t₂} (hc : Creates E bad g src t p t₁)
      (hw : (swapWrite E p g.sStart g.sCount src).run t₁ = some (r, t₂)) (hr : r ≠ .err)

/-- The mapping a round creates has to be moved before its block takes the data. -/
def MovesNew (E : Env) (bad : ℤ) (g : Seg) (src : ℕ → Sector) (t : World) : Prop :=
  ∃ p t₁ t₂, Creates E bad g src t p t₁ ∧ (swapWrite E p g.sStart g.sCount src).run t₁ = some (.dirty, t₂)

section

variable {bad : ℤ} {buf : ℕ → Sector} {t t₁ t₂ : World} {p : ℕ}

/-- What is left of a round that has created its mapping. -/
theorem coreWriteBlock_creates (h : Creates E bad g (fun k => buf (g.off + k)) t p t₁) :
    (coreWriteBlock E bad g buf).run t = ((do
      match ← swapWrite E p g.sStart g.sCount fun k => buf (g.off + k) with
      | .ok =>
        if ← enterCreated E p then
          if g.sCount < 128 then return .dirty else return .ok
        else return .err
      | _ =>
        dropCreated p
        return .err) : SwapM Ret).run t₁ := by
  obtain ⟨t₀, ⟨hn, hun⟩, hrc⟩ := h
  unfold coreWriteBlock
  rw [run_get_bind]
  simp only [hn]
  rcases hun with ⟨hb, rfl⟩ | ⟨hb, hw, hdead⟩
  · rw [if_neg (by simp [hb]), pure_bind, run_get_bind, if_neg (by simp), if_neg (by simp [hb])]
    exact run_bind_of hrc
  · rw [if_pos hb, run_bind_of hw, run_get_bind, if_neg (by simp), if_neg (by simp [hdead])]
    exact run_bind_of hrc

/-- The table is flushed whatever the device does. -/
theorem enterCreated_runs (E : Env) (p : ℕ) (s : World) : ∃ s', (enterCreated E p).run s = some (true, s') := by
  obtain ⟨ok, t, h⟩ := (flushSwapInfoTable_total (E := E)).run
    { s with core := { s.core with infoList := s.core.infoList ++ [p] } }
  obtain ⟨rfl, -⟩ := flushSwapInfoTable_dev h
  refine ⟨{ t with core := { t.core with infoNum := t.core.infoNum + 1 } }, ?_⟩
  unfold enterCreated
  rw [run_modify_bind, run_bind_of h]
  rfl

/-- **A mapping that took its data** is entered, and the round succeeds. -/
theorem coreWriteBlock_kept (h : Creates E bad g (fun k => buf (g.off + k)) t p t₁)
    (hw : (swapWrite E p g.sStart g.sCount fun k => buf (g.off + k)).run t₁ = some (.ok, t₂)) :
    ∃ r t', (coreWriteBlock E bad g buf).run t = some (r, t') ∧ r ≠ .err ∧ t'.view.Kept p := by
  obtain ⟨t', he⟩ := enterCreated_runs E p t₂
  have hrun : (coreWriteBlock E bad g buf).run t = some (if g.sCount < 128 then .dirty else .ok, t') := by
    rw [coreWriteBlock_creates h, run_bind_of hw]
    dsimp only
    rw [run_bind_of he, if_pos rfl]
    split <;> rfl
  refine ⟨_, t', hrun, by split <;> simp, ?_⟩
  obtain ⟨t₀, -, hrc⟩ := h
  obtain ⟨hres, hbrk⟩ := repairAndCreate_spec hrc
  obtain rfl := hbrk p rfl
  obtain ⟨-, b, index, d, hm, -⟩ := hres.resolve_left (by simp)
  obtain ⟨w, hw, hu⟩ := swapWrite_spec hw
  rw [(enterCreated_spec he).2.view, hu.view]
  cases hw with
  | done hd =>
    rw [hm.upd.view]
    show (View.enter (View.setData _ (t₀.view.setBitmap b).brk _) t₀.view.brk).Kept t₀.view.brk
    rw [View.alloc_setData]
    exact t₀.view.create_kept _ hm.fresh.1 hm.fresh.2.2

/-- **A mapping that had to be moved** is dropped, and the round fails. -/
theorem coreWriteBlock_dropped (h : MovesNew E bad g (fun k => buf (g.off + k)) t) :
    ∃ t', (coreWriteBlock E bad g buf).run t = some (.err, t') := by
  obtain ⟨p, t₁, t₂, hc, hw⟩ := h
  rw [coreWriteBlock_creates hc, run_bind_of hw]
  exact ⟨_, rfl⟩

theorem Unwritten.unique (h : Unwritten E bad g src t t₁) (h' : Unwritten E bad g src t t₂) : t₂ = t₁ := by
  obtain ⟨-, hun⟩ := h
  obtain ⟨-, hun'⟩ := h'
  rcases hun with ⟨hb, rfl⟩ | ⟨hb, hw, -⟩ <;> rcases hun' with ⟨hb', rfl⟩ | ⟨hb', hw', -⟩
  · rfl
  · exact absurd hb hb'
  · exact absurd hb' hb
  · exact (run_det hw hw').2

/-- A round has at most one new mapping. -/
theorem Creates.unique {q : ℕ} {t₂ : World} (h : Creates E bad g src t p t₁) (h' : Creates E bad g src t q t₂) :
    q = p ∧ t₂ = t₁ := by
  obtain ⟨t₀, hun, hrc⟩ := h
  obtain ⟨t₀', hun', hrc'⟩ := h'
  rw [hun.unique hun'] at hrc'
  obtain ⟨hp, ht₁⟩ := run_det hrc hrc'
  exact ⟨Option.some.inj hp, ht₁⟩

/-- **A round that serves its block, and moves no new mapping**, succeeds: the mapping it creates is listed and
marked, and so are all that were. -/
theorem coreWriteBlock_served (h : RoundServed E bad g (fun k => buf (g.off + k)) t)
    (hm : ¬ MovesNew E bad g (fun k => buf (g.off + k)) t) :
    ∃ r t', (coreWriteBlock E bad g buf).run t = some (r, t') ∧ r ≠ .err ∧
      ∀ p t₁, Creates E bad g (fun k => buf (g.off + k)) t p t₁ → t'.view.Kept p := by
  cases h with
  | @listed p r t₁ hp hw hr =>
    have hrun : (coreWriteBlock E bad g buf).run t =
        some (if r = .dirty ∧ ¬ g.sCount < 128 then .ok else r, t₁) := by
      unfold coreWriteBlock
      rw [run_get_bind]
      simp only [hp]
      rw [run_bind_of hw]
      cases r with
      | ok => rfl
      | err => rfl
      | dirty =>
        by_cases hlt : g.sCount < 128
        · simp [hlt]
        · simp [hlt]
    refine ⟨_, t₁, hrun, ?_, ?_⟩
    · split
      · simp
      · exact hr
    · rintro q t₂ ⟨t₀, ⟨hn, -⟩, -⟩
      rw [hp] at hn
      exact absurd hn (by simp)
  | @direct t₁ hp hb hw =>
    refine ⟨.ok, t₁, ?_, by simp, ?_⟩
    · unfold coreWriteBlock
      rw [run_get_bind]
      simp only [hp]
      rw [if_pos hb, run_bind_of hw, run_get_bind, if_pos rfl]
      rfl
    · rintro q t₂ ⟨t₀, ⟨-, hun⟩, -⟩
      rcases hun with ⟨hb', -⟩ | ⟨-, hw', -⟩
      · exact absurd hb' hb
      · exact absurd (run_det hw hw').1 (by simp)
  | @created p r t₁ t₂ hc hw hr =>
    have hok : r = .ok := by
      cases r with
      | ok => rfl
      | err => exact absurd rfl hr
      | dirty => exact absurd ⟨p, t₁, t₂, hc, hw⟩ hm
    subst hok
    obtain ⟨r, t', hrun, hr', hk⟩ := coreWriteBlock_kept hc hw
    refine ⟨r, t', hrun, hr', ?_⟩
    intro q t₃ hq
    rw [(hc.unique hq).1]
    exact hk

/-! ## The request -/

variable {start n i count off : ℕ}

/-- **A loop whose rounds serve their blocks and move no new mapping** succeeds, with every mapping it creates
listed and marked. -/
theorem coreWriteLoop_served : ∀ {n i count off : ℕ} {s : World},
    (∀ g t, WriteRound E start bad buf n i count off s g t → RoundServed E bad g (fun k => buf (g.off + k)) t) →
    (∀ g t, WriteRound E start bad buf n i count off s g t → ¬ MovesNew E bad g (fun k => buf (g.off + k)) t) →
    ∃ r s', (coreWriteLoop E start bad buf n i count off).run s = some (r, s') ∧ r ≠ .err ∧
      (∀ p, s.view.Kept p → s'.view.Kept p) ∧
      ∀ g t p t₁, WriteRound E start bad buf n i count off s g t →
        Creates E bad g (fun k => buf (g.off + k)) t p t₁ → s'.view.Kept p := by
  intro n
  induction n with
  | zero =>
    intro i count off s _ _
    refine ⟨.ok, s, rfl, by simp, fun _ hk => hk, ?_⟩
    intro g t p t₁ hg
    cases hg
  | succ n ih =>
    intro i count off s hserved hmoves
    obtain ⟨r₁, s₁, h1, hr₁, hnew⟩ := coreWriteBlock_served (hserved _ _ .here) (hmoves _ _ .here)
    obtain ⟨r₂, s₂, h2, hr₂, hold, hlater⟩ := ih (fun g t hg => hserved g t (.next h1 hr₁ hg))
      fun g t hg => hmoves g t (.next h1 hr₁ hg)
    have hstep := coreWriteBlock_step h1
    refine ⟨r₁.join r₂, s₂, ?_, ?_, fun p hk => hold p (hstep.kept hr₁ hk), ?_⟩
    · unfold coreWriteLoop
      rw [run_bind_of h1, if_neg hr₁, run_bind_of h2]
      rfl
    · cases r₁ <;> cases r₂ <;> simp_all [Ret.join]
    · intro g t p t₁ hg hc
      cases hg with
      | here => exact hold p (hnew p t₁ hc)
      | next h hr hg =>
        obtain ⟨-, hs⟩ := run_det h1 h
        rw [hs] at hg
        exact hlater g t p t₁ hg hc

/-- A loop one of whose rounds drops its new mapping fails. -/
theorem coreWriteLoop_dropped {t : World} (hg : WriteRound E start bad buf n i count off s g t)
    (hm : MovesNew E bad g (fun k => buf (g.off + k)) t) {r : Ret}
    (h : (coreWriteLoop E start bad buf n i count off).run s = some (r, s')) : r = .err := by
  induction hg generalizing r s' with
  | here =>
    obtain ⟨t', hd⟩ := coreWriteBlock_dropped hm
    unfold coreWriteLoop at h
    rw [run_bind_of hd, if_pos rfl] at h
    exact (run_pure_iff.1 h).1
  | @next n i count off s s₁ t g r₁ h1 hr _ ih =>
    unfold coreWriteLoop at h
    rw [run_bind_of h1, if_neg hr] at h
    obtain ⟨r₂, s₂, h2, h3⟩ := run_bind_iff.1 h
    obtain ⟨rfl, rfl⟩ := run_pure_iff.1 h3
    rw [ih hm h2]
    cases r₁ <;> rfl

/-- **New mappings are kept.** A write request whose rounds all serve their blocks, through mappings that
`swap_write` does not fail to write or in place, returns success with the mappings it created listed and
marked, if and only if the device was not declared dead before it and none of the new mappings had to be moved:
for a new mapping, and only there, `-DATA_MAY_DIRTY` counts as a failure. -/
theorem new_mappings_kept_iff {bad : ℕ}
    (hserved : ∀ g t, WriteRound E start (badIndex bad) buf (getSwapBlockCount start (s32 count)).toNat 0 count 0
      { s with core := { s.core with user := s.core.user + 1 } } g t →
      RoundServed E (badIndex bad) g (fun k => buf (g.off + k)) t) :
    (∃ r s', (scsiSwapCoreWrite E start count bad buf).run s = some (r, s') ∧ r ≠ .err ∧
      ∀ g t p t₁, WriteRound E start (badIndex bad) buf (getSwapBlockCount start (s32 count)).toNat 0 count 0
        { s with core := { s.core with user := s.core.user + 1 } } g t →
        Creates E (badIndex bad) g (fun k => buf (g.off + k)) t p t₁ →
        p ∈ s'.core.infoList ∧ s'.core.head.bitmap.getLsbD (s'.heap p).table.index.toNat = true) ↔
    s.core.deviceDead = 0 ∧
      ∀ g t, WriteRound E start (badIndex bad) buf (getSwapBlockCount start (s32 count)).toNat 0 count 0
        { s with core := { s.core with user := s.core.user + 1 } } g t →
        ¬ MovesNew E (badIndex bad) g (fun k => buf (g.off + k)) t := by
  constructor
  · rintro ⟨r, s', h, hr, -⟩
    unfold scsiSwapCoreWrite at h
    rw [run_get_bind] at h
    by_cases hdead : s.core.deviceDead = 0
    · rw [if_neg (by simp [hdead])] at h
      obtain ⟨u, s₁, h1, h2⟩ := run_bind_iff.1 h
      obtain rfl := run_modify_iff.1 h1
      obtain ⟨r₁, s₂, h3, h4⟩ := run_bind_iff.1 h2
      obtain ⟨u, s₃, h5, h6⟩ := run_bind_iff.1 h4
      obtain ⟨rfl, rfl⟩ := run_pure_iff.1 h6
      exact ⟨hdead, fun g t hg hm => hr (coreWriteLoop_dropped hg hm h3)⟩
    · rw [if_pos hdead] at h
      exact absurd (run_pure_iff.1 h).1 hr
  · rintro ⟨hdead, hmoves⟩
    obtain ⟨r, s₁, h1, hr, -, hnew⟩ := coreWriteLoop_served hserved hmoves
    refine ⟨r, { s₁ with core := { s₁.core with user := s₁.core.user - 1 } }, ?_, hr, ?_⟩
    · unfold scsiSwapCoreWrite
      rw [run_get_bind, if_neg (by simp [hdead])]
      unfold userInc
      rw [run_modify_bind, run_bind_of h1]
      rfl
    · intro g t p t₁ hg hc
      have hk := hnew g t p t₁ hg hc
      exact ⟨hk.mem, hk.bit⟩

end

/-! ## A block that is written for the first time -/

/-- The one round of a write of block 0. -/
theorem blockZero_round {bad : ℤ} {buf : ℕ → Sector} {t : World}
    (h : WriteRound E 0 bad buf (getSwapBlockCount 0 (s32 128)).toNat 0 128 0 s g t) :
    g = ⟨0, 0, 0, 128, 0⟩ ∧ t = s := by
  have hn : (getSwapBlockCount 0 (s32 128)).toNat = 1 := by decide
  rw [hn] at h
  cases h with
  | here => exact ⟨rfl, rfl⟩
  | next _ _ h => cases h

/-- Start a driver and take the first round of a write of block 0 up to the end of the first `swap_write`. -/
def firstWrite (E : Env) (buf : ℕ → Sector) : SwapM (List Bool × List ℕ × Option Ret) := do
  let ok ← scsiSwapInit E 1000
  let s ← get
  userInc
  let u ← get
  let written ← hdWriteSectorRetry E .user 0 128 buf
  let t ← get
  match ← repairAndCreate E 0 128 with
  | some p =>
    let r ← swapWrite E p 0 128 buf
    return ([ok, (u.swapFindSwapInfo 0).isNone, written], [s.core.deviceDead, t.core.deviceDead], some r)
  | none => return ([], [], none)

theorem firstWrite_run (buf : ℕ → Sector) {r : Ret} {w : World}
    (h : ((firstWrite E buf).run w).map Prod.fst = some ([true, true, false], [0, 0], some r)) :
    ∃ s p t₁ t₂, (scsiSwapInit E 1000).run w = some (true, s) ∧ s.core.deviceDead = 0 ∧
      Creates E (-1) ⟨0, 0, 0, 128, 0⟩ buf { s with core := { s.core with user := s.core.user + 1 } } p t₁ ∧
      (swapWrite E p 0 128 buf).run t₁ = some (r, t₂) := by
  obtain ⟨t₂, h⟩ := run_of_result h
  unfold firstWrite at h
  obtain ⟨ok, s, h1, h⟩ := run_bind_iff.1 h
  rw [run_get_bind] at h
  unfold userInc at h
  rw [run_modify_bind, run_get_bind] at h
  obtain ⟨written, t, h2, h⟩ := run_bind_iff.1 h
  rw [run_get_bind] at h
  obtain ⟨o, t₁, h3, h⟩ := run_bind_iff.1 h
  cases o with
  | none =>
    obtain ⟨he, -⟩ := run_pure_iff.1 h
    simp at he
  | some p =>
    obtain ⟨r', t₃, h4, h⟩ := run_bind_iff.1 h
    obtain ⟨he, -⟩ := run_pure_iff.1 h
    simp only [Prod.mk.injEq, List.cons.injEq, Option.some.injEq, and_true] at he
    obtain ⟨⟨rfl, hf, rfl⟩, ⟨hd, hd'⟩, rfl⟩ := he
    exact ⟨s, p, t₁, t₃, h1, hd.symm,
      ⟨t, ⟨Option.isNone_iff_eq_none.1 hf.symm, Or.inr ⟨by decide, h2, hd'.symm⟩⟩, h3⟩,
      h4⟩

/-- The first write of block 0, which the disk refuses in place, to a healthy spare block. -/
theorem new_mappings_kept_iff_healthy :
    let E := Env.refusing fun c _ => c.lba < 1000
    ∃ s, (scsiSwapInit E 1000).run World.blank = some (true, s) ∧
      ∃ r s', (scsiSwapCoreWrite E 0 128 (2 ^ 64 - 1) fun _ _ => 1).run s = some (r, s') ∧ r ≠ .err := by
  intro E
  obtain ⟨s, p, t₁, t₂, hinit, hdead, hc, hw⟩ := firstWrite_run (E := E) (r := .ok) (w := World.blank)
    (fun _ _ => 1) (by decide +kernel)
  have hserved : ∀ g t, WriteRound E 0 (badIndex (2 ^ 64 - 1)) (fun _ _ => 1)
      (getSwapBlockCount 0 (s32 128)).toNat 0 128 0
        { s with core := { s.core with user := s.core.user + 1 } } g t →
      RoundServed E (badIndex (2 ^ 64 - 1)) g (fun _ _ => 1) t := by
    intro g t hg
    obtain ⟨rfl, rfl⟩ := blockZero_round hg
    exact .created hc hw (by simp)
  have hmoves : ∀ g t, WriteRound E 0 (badIndex (2 ^ 64 - 1)) (fun _ _ => 1)
      (getSwapBlockCount 0 (s32 128)).toNat 0 128 0
        { s with core := { s.core with user := s.core.user + 1 } } g t →
      ¬ MovesNew E (badIndex (2 ^ 64 - 1)) g (fun _ _ => 1) t := by
    rintro g t hg ⟨q, u₁, u₂, hq, hw'⟩
    obtain ⟨rfl, rfl⟩ := blockZero_round hg
    obtain ⟨rfl, rfl⟩ := hc.unique hq
    exact absurd (run_det hw hw').1 (by simp)
  obtain ⟨r, s', hrun, hr, -⟩ := (new_mappings_kept_iff hserved).2 ⟨hdead, hmoves⟩
  exact ⟨s, hinit, r, s', hrun, hr⟩

/-- The same write when the spare block does not take the data: `swap_write` moves the new mapping to another
block, which takes them, and the request fails. -/
theorem new_mapping_dropped :
    let E := Env.refusing fun c buf => c.lba < 1000 || c.lba = 1000 + swapDataOffset && buf 0 0 = 1
    ∃ s, (scsiSwapInit E 1000).run World.blank = some (true, s) ∧ s.core.deviceDead = 0 ∧
      (∀ g t, WriteRound E 0 (badIndex (2 ^ 64 - 1)) (fun _ _ => 1) (getSwapBlockCount 0 (s32 128)).toNat 0 128 0
        { s with core := { s.core with user := s.core.user + 1 } } g t →
        RoundServed E (badIndex (2 ^ 64 - 1)) g (fun _ _ => 1) t) ∧
      ∃ s', (scsiSwapCoreWrite E 0 128 (2 ^ 64 - 1) fun _ _ => 1).run s = some (.err, s') := by
  intro E
  obtain ⟨s, p, t₁, t₂, hinit, hdead, hc, hw⟩ := firstWrite_run (E := E) (r := .dirty) (w := World.blank)
    (fun _ _ => 1) (by decide +kernel)
  refine ⟨s, hinit, hdead, ?_, ?_⟩
  · intro g t hg
    obtain ⟨rfl, rfl⟩ := blockZero_round hg
    exact .created hc hw (by simp)
  · have hdrop : ∃ t', (coreWriteBlock E (-1) ⟨0, 0, 0, 128, 0⟩ fun _ _ => 1).run
        { s with core := { s.core with user := s.core.user + 1 } } = some (.err, t') :=
      coreWriteBlock_dropped ⟨p, t₁, t₂, hc, hw⟩
    obtain ⟨t', hdrop⟩ := hdrop
    refine ⟨{ t' with core := { t'.core with user := t'.core.user - 1 } }, ?_⟩
    have hloop : (coreWriteLoop E 0 (badIndex (2 ^ 64 - 1)) (fun _ _ => 1) (getSwapBlockCount 0 (s32 128)).toNat 0
        128 0).run { s with core := { s.core with user := s.core.user + 1 } } = some (.err, t') :=
      run_bind_of hdrop
    unfold scsiSwapCoreWrite userInc
    rw [run_get_bind, if_neg (by simp [hdead]), run_modify_bind]
    exact run_bind_of hloop

end ScsiSwap
