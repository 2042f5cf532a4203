import ScsiSwap.Proof.Callers
import ScsiSwap.Proof.Divert
import ScsiSwap.Proof.Move

/-!
# What the success of a bio means

`swap_bio_work_handler` ends a bio with error 0 whenever the core does not fail, so also when the core
returns `-DATA_MAY_DIRTY`. It does that when a mapping was made for a read, when only part of a block was
written to a new mapping, and when a mapping had to be moved: then sectors may have been replaced by
zeros.

* `copied`: the data of a new mapping, by what the two reads around the requested sectors left;
* `coreReadBlock_delivers_iff`, `coreWriteBlock_keeps_iff`: when a round that does not fail is honest;
* `success_honest_iff`: when a bio that is ended with error 0 is.
-/

namespace ScsiSwap

open StateOption

variable {E : Env} {s s' t u : World} {p : ℕ} {bad : ℤ} {g : Seg} {buf : ℕ → Sector}

/-! ## The data of a new mapping -/

/-- What a read leaves in sector `k` of its buffer, where `old` was, when `sec` is on the disk. -/
def IoResult.leaves (io : IoResult) (sec old : Sector) (k : ℕ) : Sector :=
  match io with
  | .ok => sec
  | .fail junk _ => (junk k).getD old

theorem copyAround_leaves {sector off len : ℕ} {v : PUnit} {d : Block}
    (h : (copyAround E p sector off len).run s = some (v, s')) (hd : (s.heap p).data = some d)
    (hlen : len < 2 ^ 16) (hsec : sector + len ≤ 2 ^ 32) :
    s'.disk = s.disk ∧ s'.tick = (if len = 0 then s.tick else s.tick + 1) ∧
      (s'.heap p).data = some fun k : Fin 128 => if off ≤ k.val ∧ k.val < off + len then
        (E.read s.tick ⟨sector, len, 0⟩).leaves (s.disk (sector + (k - off))) (d k) (k - off) else d k := by
  unfold copyAround at h
  split at h
  · rename_i hpos
    obtain ⟨a, s₁, h1, h2⟩ := run_bind_iff.1 h
    obtain rfl := run_modify_iff.1 h2
    unfold hdReadSectorNoRetry at h1
    rw [hdReadSector_run, Nat.mod_eq_of_lt hlen, Nat.mod_eq_of_lt (by omega)] at h1
    obtain ⟨rfl, rfl⟩ := Prod.mk.inj (Option.some.inj h1)
    refine ⟨rfl, (if_neg (by omega)).symm, ?_⟩
    show (Function.update s.heap p _ p).data = _
    rw [Function.update_self]
    show (s.heap p).data.map _ = _
    rw [hd, Option.map_some]
    congr 1
    funext k
    unfold fillBuf
    rw [blockBuf_val]
    by_cases hle : off ≤ k.val
    · cases hio : E.read s.tick ⟨sector, len, 0⟩ with
      | ok =>
        by_cases hlt : k.val - off < len
        · rw [if_pos hle, if_pos ⟨hle, by omega⟩]
          simp only [if_pos hlt, Option.getD_some, IoResult.leaves]
        · rw [if_pos hle, if_neg (by omega)]
          simp only [if_neg hlt, Option.getD_none]
      | fail junk nc =>
        by_cases hlt : k.val - off < len
        · rw [if_pos hle, if_pos ⟨hle, by omega⟩]
          simp only [if_pos hlt, IoResult.leaves]
        · rw [if_pos hle, if_neg (by omega)]
          simp only [if_neg hlt, Option.getD_none]
    · rw [if_neg hle, if_neg (by omega)]
  · obtain ⟨-, rfl⟩ := run_pure_iff.1 h
    refine ⟨rfl, (if_pos (by omega)).symm, hd.trans ?_⟩
    congr 1
    funext k
    rw [if_neg (by omega)]

/-- The data of a mapping for the block at `src` of which `n` sectors from `off` on were requested, when
`_swap_create` starts to copy in `t`: what the reads of the sectors before and of those after them left,
and zeros. -/
def copied (E : Env) (t : World) (src off n : ℕ) : Block := fun k =>
  if k < off then (E.read t.tick ⟨src, off, 0⟩).leaves (t.disk (src + k)) zeroSector k
  else if k < off + n then zeroSector
  else (E.read (if off = 0 then t.tick else t.tick + 1) ⟨src + (off + n), 128 - (off + n), 0⟩).leaves
    (t.disk (src + k)) zeroSector (k - (off + n))

theorem swapCreate'_copied {src off n : ℕ} (h : (swapCreate' E p src off n).run s = some (true, s'))
    (hp : (s.heap p).data = some fun _ => zeroSector) (hn : off + n ≤ 128) (hsrc : src + 128 ≤ 2 ^ 32) :
    ∃ index t, (swapAllocNewBlock E).run s = some (some index, t) ∧
      (s'.heap p).data = some (copied E t src off n) := by
  unfold swapCreate' at h
  obtain ⟨o, t, h1, h2⟩ := run_bind_iff.1 h
  cases o with
  | none => exact absurd (run_pure_iff.1 h2).1 (by simp)
  | some index =>
    refine ⟨index, t, h1, ?_⟩
    obtain ⟨b, hal⟩ := swapAllocNewBlock_alloc h1
    have hp₁ : (t.heap p).data = some fun _ => zeroSector := (hal.upd.data p).trans hp
    have e1 : s32 ((off : ℤ) + n) = (off : ℤ) + n := by
      have := s32_ofNat (n := off + n) (by omega)
      simpa using this
    have e2 : ((off : ℤ) + n).toNat = off + n := by omega
    have e3 : (128 - ((off : ℤ) + n)).toNat = 128 - (off + n) := by omega
    dsimp only at h2
    rw [e1, if_neg (by omega), e2, e3, Int.toNat_natCast] at h2
    obtain ⟨v₁, s₁, h3, h4⟩ := run_bind_iff.1 h2
    obtain ⟨v₂, s₂, h5, h6⟩ := run_bind_iff.1 h4
    rw [run_modify_bind] at h6
    obtain ⟨-, rfl⟩ := run_pure_iff.1 h6
    -- the sectors before the requested ones, then those after them
    obtain ⟨hdisk₁, htick₁, hd₁⟩ := copyAround_leaves h3 hp₁ (by omega) (by omega)
    obtain ⟨-, -, hd₂⟩ := copyAround_leaves h5 hd₁ (by omega) (by omega)
    show (Function.update s₂.heap p _ p).data = _
    rw [Function.update_self]
    dsimp only
    rw [hd₂]
    refine congrArg some (funext fun k => ?_)
    have hk := k.isLt
    unfold copied
    rw [hdisk₁, htick₁, Nat.zero_add, Nat.sub_zero]
    by_cases hfront : k.val < off
    · rw [if_neg (by omega), if_pos ⟨Nat.zero_le _, hfront⟩, if_pos hfront]
    · rw [if_neg (by omega : ¬ (0 ≤ k.val ∧ k.val < off)), if_neg hfront]
      by_cases hback : off + n ≤ k.val
      · rw [if_pos ⟨hback, by omega⟩, if_neg (Nat.not_lt.2 hback),
          show src + (off + n) + (k.val - (off + n)) = src + k by omega]
      · rw [if_neg fun h => hback h.1, if_pos (Nat.lt_of_not_le hback)]

/-- What `repairAndCreate` does before the copies: the unit is tested, an entry is allocated, and a spare
block is chosen. -/
def prepareCopy (E : Env) : SwapM (Option ℕ) := do
  let _ ← swapRepairSuccessiveSectors E
  match ← swapAllocInfo E with
  | none => return none
  | some _ => swapAllocNewBlock E

/-- It does not write outside of the free spare blocks. -/
theorem prepareCopy_disk {o : Option ℕ} (h : (prepareCopy E).run s = some (o, t)) {x : ℕ}
    (hx : ¬ FreeArea s.view x) : t.disk x = s.disk x := by
  unfold prepareCopy at h
  obtain ⟨v, s₁, h1, h2⟩ := run_bind_iff.1 h
  obtain ⟨a, s₂, h3, h4⟩ := run_bind_iff.1 h2
  have hd₁ := swapRepairSuccessiveSectors_dev (A := fun _ => False) h1
  rcases swapAllocInfo_spec (A := fun _ => False) h3 with ⟨rfl, hd₂⟩ | ⟨rfl, hu₂⟩
  · obtain ⟨-, rfl⟩ := run_pure_iff.1 h4
    exact (hd₁.dev hd₂).disk x id
  · obtain ⟨b, hal⟩ := swapAllocNewBlock_alloc h4
    have hfree : ¬ FreeArea s₂.view x := by
      rw [hu₂.view, hd₁.view]
      exact hx
    exact (hal.upd.disk x hfree).trans ((hu₂.disk x id).trans (hd₁.disk x id))

/-- **What is in a new mapping.** -/
theorem repairAndCreate_copied {start count : ℕ} (h : (repairAndCreate E start count).run s = some (some p, s'))
    (hfit : start + count ≤ swapSectorAlign start + 128) (hsrc : swapSectorAlign start + 128 ≤ 2 ^ 32) :
    ∃ index t, (prepareCopy E).run s = some (some index, t) ∧
      (s'.heap p).data = some (copied E t (swapSectorAlign start) (start - swapSectorAlign start) count) := by
  have hal := swapSectorAlign_le start
  have hlt := lt_swapSectorAlign_add start
  unfold repairAndCreate at h
  obtain ⟨v, s₁, h1, h2⟩ := run_bind_iff.1 h
  rw [run_get_bind] at h2
  split at h2
  · exact absurd (run_pure_iff.1 h2).1 (by simp)
  unfold swapCreate at h2
  obtain ⟨a, s₂, h3, h4⟩ := run_bind_iff.1 h2
  cases a with
  | inr reason =>
    obtain ⟨w, s₃, -, h6⟩ := run_bind_iff.1 h4
    exact absurd (run_pure_iff.1 h6).1 (by simp)
  | inl q =>
    dsimp only at h4
    rw [run_get_bind] at h4
    obtain ⟨w, s₃, h5, h6⟩ := run_bind_iff.1 h4
    obtain ⟨hq, rfl⟩ := run_pure_iff.1 h6
    obtain rfl := Option.some.inj hq
    rw [(scsiSwapLogPush_dev h5).data p]
    unfold swapCreateTry at h3
    rw [run_get_bind] at h3
    split at h3
    · exact absurd (run_pure_iff.1 h3).1 (by simp)
    obtain ⟨o, s₄, h7, h8⟩ := run_bind_iff.1 h3
    rcases swapAllocInfo_spec (A := fun _ => False) h7 with ⟨rfl, -⟩ | ⟨rfl, hu⟩
    · exact absurd (run_pure_iff.1 h8).1 (by simp)
    dsimp only at h8
    obtain ⟨ok, s₅, h9, h10⟩ := run_bind_iff.1 h8
    cases ok with
    | false => exact absurd (run_pure_iff.1 h10).1 (by simp)
    | true =>
      rw [if_pos rfl] at h10
      obtain ⟨ok, s₆, h11, h12⟩ := run_bind_iff.1 h10
      cases ok with
      | false =>
        rw [if_neg (by simp), run_modify_bind] at h12
        exact absurd (run_pure_iff.1 h12).1 (by simp)
      | true =>
        obtain ⟨hp, rfl⟩ := run_pure_iff.1 h12
        obtain rfl := Sum.inl.inj hp
        -- offset and count are small, so the casts to `int` keep them
        have e1 : s32 ((start : ℤ) - swapSectorAlign start) = ((start - swapSectorAlign start : ℕ) : ℤ) := by
          rw [← Nat.cast_sub hal]
          exact s32_ofNat (by omega)
        rw [e1, s32_ofNat (by omega : count < 2 ^ 31)] at h9
        have hzero : (s₄.heap s₁.brk).data = some fun _ => zeroSector := by
          rw [hu.data]
          exact congrArg SwapInfo.data (View.setInfo_info_self ..)
        obtain ⟨index, t, hrun, hdata⟩ := swapCreate'_copied h9 hzero (by omega) hsrc
        refine ⟨index, t, ?_, ((flushSwapHead_dev h11).data _).trans hdata⟩
        unfold prepareCopy
        rw [run_bind_of h1, run_bind_of h7]
        exact hrun

/-! ## Sectors of a block -/

theorem Seg.Ok.align_add {R : ℕ} (hg : g.Ok R) (k : Fin 128) : swapSectorAlign (g.bStart + k) = g.bStart := by
  have hk := k.isLt
  have hal := hg.aligned
  unfold swapSectorAlign swapBlockIndex
  omega

theorem Seg.Ok.contents_mapped {R : ℕ} (hg : g.Ok R) {d : Block} (hp : s.swapFindSwapInfo g.bStart = some p)
    (hd : (s.heap p).data = some d) (k : Fin 128) : s.contents (g.bStart + k) = d k := by
  have hf : s.view.find (swapSectorAlign (g.bStart + k)) = some p :=
    (congrArg s.view.find (hg.align_add k)).trans hp
  rw [contents_view, View.contents_mapped hf hd, hg.align_add, Nat.add_sub_cancel_left, blockBuf_val]

theorem Seg.Ok.contents_unmapped {R : ℕ} (hg : g.Ok R) (hn : s.swapFindSwapInfo g.bStart = none) (k : Fin 128) :
    s.contents (g.bStart + k) = s.disk (g.bStart + k) := by
  rw [contents_view, View.contents_unmapped]
  rw [hg.align_add]
  exact hn

/-- The user sectors of the block of `g` that are not in `g`. -/
def Seg.Rest (g : Seg) (R : ℕ) (k : Fin 128) : Prop := Outside g.sStart g.sCount k ∧ g.bStart + k < R

theorem Seg.Ok.rest_iff {R : ℕ} (hg : g.Ok R) (k : Fin 128) :
    g.Rest R k ↔ ¬ g.area (g.bStart + k) ∧ g.bStart + k < R := by
  have h1 := hg.le
  have h2 := hg.fit
  unfold Seg.Rest Outside Seg.area
  rw [hg.align]
  refine and_congr_left' ?_
  omega

/-- Outside of the block a write changes nothing, so it keeps the contents of all other sectors if it keeps
those of the rest of the block. -/
theorem WriteStep.keeps_iff {src : ℕ → Sector} {r : Ret} (h : WriteStep E s g src r s') (hv : s.view.Inv)
    (hg : g.Ok s.view.geom.reserve) :
    (∀ x < s.view.geom.reserve, ¬ g.area x → s'.contents x = s.contents x) ↔
      ∀ k, g.Rest s.view.geom.reserve k → s'.contents (g.bStart + k) = s.contents (g.bStart + k) := by
  constructor
  · intro hall k hk
    obtain ⟨hout, hlt⟩ := (hg.rest_iff k).1 hk
    exact hall _ hlt hout
  · intro hall x hx hout
    by_cases hb : swapSectorAlign x = g.bStart
    · have h1 := swapSectorAlign_le x
      have h2 := lt_swapSectorAlign_add x
      obtain ⟨k, rfl⟩ : ∃ k : Fin 128, x = g.bStart + k := ⟨⟨x - g.bStart, by omega⟩, by dsimp only; omega⟩
      exact hall k ((hg.rest_iff k).2 ⟨hout, hx⟩)
    · exact h.frame hv hg hx hb

/-! ## Rounds of a write -/

theorem swapWrite_ok {start count : ℕ} (h : (swapWrite E p start count buf).run s = some (.ok, s')) :
    (swapWrite' E p start count buf).run s = some (true, s') := by
  unfold swapWrite at h
  obtain ⟨ok, t, h1, h2⟩ := run_bind_iff.1 h
  cases ok with
  | true =>
    obtain ⟨-, rfl⟩ := run_pure_iff.1 h2
    exact h1
  | false =>
    rw [if_neg (by simp)] at h2
    obtain ⟨ok, t', h3, h4⟩ := run_bind_iff.1 h2
    cases ok with
    | false => exact absurd (run_pure_iff.1 h4).1 (by simp)
    | true =>
      rw [if_pos rfl] at h4
      obtain ⟨ok, t₃, h5, h6⟩ := run_bind_iff.1 h4
      cases ok with
      | false => exact absurd (run_pure_iff.1 h6).1 (by simp)
      | true => exact absurd (run_pure_iff.1 h6).1 (by simp)

theorem Unwritten.dev {src : ℕ → Sector} (h : Unwritten E bad g src s u) :
    Dev (cmdRange g.sStart g.sCount) s u := by
  obtain ⟨-, ⟨-, rfl⟩ | ⟨-, hw, -⟩⟩ := h
  · exact Dev.refl _
  · exact hdWriteSector_dev hw

/-- The contents of the block of a mapping that is entered. -/
theorem enterCreated_contents {A : ℕ → Prop} {u₁ t₂ : World} {b : BitVec 1024} {index : ℕ} {d : Block}
    (hdev : Dev A s u₁) (hv : s.view.Inv) (hg : g.Ok s.view.geom.reserve) (hn : s.view.find g.bStart = none)
    (hview : t₂.view = (u₁.view.setBitmap b).alloc
      ⟨entryFor u₁.view.geom.data (swapSectorAlign g.sStart) index, some d⟩)
    (he : (enterCreated E u₁.brk).run t₂ = some (true, s')) (k : Fin 128) : s'.contents (g.bStart + k) = d k := by
  have hsmall := (hg.small hv.geom.size).2.2
  have hview' : s'.view = u₁.view.create b (swapSectorAlign g.sStart) index d := by
    rw [(enterCreated_spec he).2.view, hview]
    rfl
  rw [hg.align, hdev.view] at hview'
  rw [contents_view, hview', View.create_contents hv (by omega) hn (hg.align_add k), Nat.add_sub_cancel_left,
    blockBuf_val]

/-- What a round of a write has made of the block it created a mapping for. -/
theorem created_contents {src : ℕ → Sector} {A : ℕ → Prop} {u₁ t₁ t₂ : World} {d : Block} (hdev : Dev A s u₁)
    (hv : s.view.Inv) (hg : g.Ok s.view.geom.reserve) (hn : s.view.find g.bStart = none)
    (hc : (repairAndCreate E g.sStart g.sCount).run u₁ = some (some p, t₁))
    (hw : (swapWrite E p g.sStart g.sCount src).run t₁ = some (.ok, t₂))
    (he : (enterCreated E p).run t₂ = some (true, s')) (hd : (t₁.heap p).data = some d) (k : Fin 128) :
    s'.contents (g.bStart + k) = copyIn d (g.sStart - swapSectorAlign g.sStart) g.sCount src k := by
  obtain ⟨hres, hbrk⟩ := repairAndCreate_spec hc
  obtain rfl := hbrk p rfl
  obtain ⟨-, b, index, d', hm, -⟩ := hres.resolve_left (by simp)
  obtain ⟨w, hw, hu⟩ := swapWrite_spec hw
  cases hw with
  | @done d'' hd'' =>
    obtain rfl : d'' = d := Option.some.inj (hd''.symm.trans hd)
    have hview : t₂.view = (u₁.view.setBitmap b).alloc
        ⟨entryFor u₁.view.geom.data (swapSectorAlign g.sStart) index,
        some (copyIn d'' (g.sStart - swapSectorAlign g.sStart) g.sCount src)⟩ := by
      rw [hu.view, hm.upd.view]
      exact View.alloc_setData ..
    exact enterCreated_contents hdev hv hg hn hview he k

/-- How a round of a write comes to an end without failing. -/
inductive WroteVia (E : Env) (bad : ℤ) (g : Seg) (src : ℕ → Sector) (u : World) : Ret → World → Prop
  | listed {p r r' u'} (hp : u.swapFindSwapInfo g.bStart = some p)
      (hw : (swapWrite E p g.sStart g.sCount src).run u = some (r', u')) (hne : r' ≠ .err)
      (hr : r' = .ok → r = .ok) :
      WroteVia E bad g src u r u'
  | direct {u'} (hn : u.swapFindSwapInfo g.bStart = none) (hb : bad ≠ g.blk)
      (hw : (hdWriteSectorRetry E .user g.sStart g.sCount src).run u = some (true, u')) :
      WroteVia E bad g src u .ok u'
  | created {p r u₁ t t' u'} (hun : Unwritten E bad g src u u₁)
      (hc : (repairAndCreate E g.sStart g.sCount).run u₁ = some (some p, t))
      (hw : (swapWrite E p g.sStart g.sCount src).run t = some (.ok, t'))
      (he : (enterCreated E p).run t' = some (true, u')) : WroteVia E bad g src u r u'

theorem coreWriteBlock_via {r : Ret} (h : (coreWriteBlock E bad g buf).run s = some (r, s')) (hr : r ≠ .err) :
    WroteVia E bad g (fun k => buf (g.off + k)) s r s' := by
  unfold coreWriteBlock at h
  rw [run_get_bind] at h
  dsimp only at h
  cases hf : s.swapFindSwapInfo g.bStart with
  | some p =>
    rw [hf] at h
    obtain ⟨r', s₁, h1, h2⟩ := run_bind_iff.1 h
    cases r' with
    | ok =>
      obtain ⟨rfl, rfl⟩ := run_pure_iff.1 h2
      exact .listed hf h1 (by simp) fun _ => rfl
    | dirty =>
      dsimp only at h2
      have hs : s' = s₁ := by
        split at h2
        · exact (run_pure_iff.1 h2).2
        · exact (run_pure_iff.1 h2).2
      rw [hs]
      exact .listed hf h1 (by simp) (by simp)
    | err => exact absurd (run_pure_iff.1 h2).1 hr
  | none =>
    rw [hf] at h
    obtain ⟨done, s₁, h1, h2⟩ := run_bind_iff.1 h
    rw [run_get_bind] at h2
    cases done with
    | true =>
      obtain ⟨rfl, rfl⟩ := run_pure_iff.1 h2
      split at h1
      · exact .direct hf ‹_› h1
      · exact absurd (run_pure_iff.1 h1).1 (by simp)
    | false =>
      rw [if_neg (by simp)] at h2
      split at h2
      · exact absurd (run_pure_iff.1 h2).1 hr
      rename_i hdead
      -- neither mapped nor written in place
      have hun : Unwritten E bad g (fun k => buf (g.off + k)) s s₁ := by
        refine ⟨hf, ?_⟩
        split at h1
        · rename_i hb
          refine Or.inr ⟨hb, h1, ?_⟩
          by_contra hne
          exact hdead ⟨hb, hne⟩
        · rename_i hb
          exact Or.inl ⟨not_not.1 hb, (run_pure_iff.1 h1).2⟩
      obtain ⟨o, s₂, h3, h4⟩ := run_bind_iff.1 h2
      cases o with
      | none => exact absurd (run_pure_iff.1 h4).1 hr
      | some p =>
        obtain ⟨r', s₃, h5, h6⟩ := run_bind_iff.1 h4
        cases r' with
        | ok =>
          obtain ⟨ok, s₄, h7, h8⟩ := run_bind_iff.1 h6
          obtain ⟨rfl, -⟩ := enterCreated_spec h7
          rw [if_pos rfl] at h8
          have hs : s' = s₄ := by
            split at h8
            · exact (run_pure_iff.1 h8).2
            · exact (run_pure_iff.1 h8).2
          rw [hs]
          exact .created hun h3 h5 h7
        -- `swap_write` on a new mapping must not move it
        | dirty =>
          obtain ⟨v, s₄, h7, h8⟩ := run_bind_iff.1 h6
          exact absurd (run_pure_iff.1 h8).1 hr
        | err =>
          obtain ⟨v, s₄, h7, h8⟩ := run_bind_iff.1 h6
          exact absurd (run_pure_iff.1 h8).1 hr

/-- When a round of a write does not change the rest of its block: where the mapping has to be moved, the rest
of the old block is read back as it was in memory; where a mapping is made, the rest of the block is copied as
it is on the disk. -/
structure KeepsRest (E : Env) (bad : ℤ) (g : Seg) (src : ℕ → Sector) (u : World) : Prop where
  moved : ∀ p d t, u.swapFindSwapInfo g.bStart = some p → (u.heap p).data = some d →
    (swapWrite' E p g.sStart g.sCount src).run u = some (false, t) →
    RereadsAs E p t (g.Rest u.core.sectorReserveStart) d
  created : ∀ u₁ index t, Unwritten E bad g src u u₁ → (prepareCopy E).run u₁ = some (some index, t) →
    ∀ k, g.Rest u.core.sectorReserveStart k →
      copied E t g.bStart (g.sStart - g.bStart) g.sCount k = t.disk (g.bStart + k)

/-- **A round of a write that does not fail** changes nothing but its segment, exactly if it keeps the rest of
its block. -/
theorem coreWriteBlock_keeps_iff {r : Ret} (h : (coreWriteBlock E bad g buf).run s = some (r, s')) (hr : r ≠ .err)
    (hv : s.view.Inv) (hg : g.Ok s.view.geom.reserve) :
    (∀ x < s.view.geom.reserve, ¬ g.area x → s'.contents x = s.contents x) ↔
      KeepsRest E bad g (fun k => buf (g.off + k)) s := by
  have hstep := coreWriteBlock_step h
  cases coreWriteBlock_via h hr with
  | @listed p _ r' _ hp hw hne hok =>
    obtain ⟨hmem, -⟩ := View.find_some (v := s.view) hp
    obtain ⟨d, hd⟩ := Option.isSome_iff_exists.1 (hv.info p hmem).data
    have hcreated : ∀ u₁, ¬ Unwritten E bad g (fun k => buf (g.off + k)) s u₁ := by
      rintro u₁ ⟨hn, -⟩
      rw [hp] at hn
      exact absurd hn (by simp)
    cases r' with
    | err => exact absurd rfl hne
    | ok =>
      obtain rfl := hok rfl
      refine iff_of_true (fun x hx hout => hstep.ok_frame hv hg hx hout)
        ⟨?_, fun u₁ _ _ hun => absurd hun (hcreated u₁)⟩
      intro q d' t hq hd' hfail
      obtain rfl := Option.some.inj (hp.symm.trans hq)
      exact absurd (run_det (swapWrite_ok hw) hfail).1 (by simp)
    | dirty =>
      -- the mapping was moved: the rest of the block is what was read back
      obtain ⟨t, index, s₁, hfail, hal, hdata⟩ := swapWrite_rereads hw
      obtain ⟨w, hwrote, hu⟩ := swapWrite_spec hw
      have hp' : s'.swapFindSwapInfo g.bStart = some p := by
        rw [find_view, hu.view, hwrote.sameBut.find]
        exact hp
      rw [hstep.keeps_iff hv hg]
      trans ∀ k, g.Rest s.view.geom.reserve k → reread E p s₁ k = d k
      · refine forall_congr' fun k => forall_congr' fun hk => ?_
        rw [hg.contents_mapped hp' hdata, hg.contents_mapped hp hd, copyIn_outside hk.1]
      · rw [← rereadsAs_iff hal]
        refine ⟨fun hD => ⟨?_, fun u₁ _ _ hun => absurd hun (hcreated u₁)⟩, fun hD => hD.moved p d t hp hd hfail⟩
        intro q d' t' hq hd' hfail'
        obtain rfl := Option.some.inj (hp.symm.trans hq)
        obtain rfl := Option.some.inj (hd.symm.trans hd')
        obtain ⟨-, rfl⟩ := run_det hfail hfail'
        exact hD
  | direct hn hb hw =>
    -- written in place: the condition is about other rounds
    refine iff_of_true (fun x hx hout => hstep.ok_frame hv hg hx hout) ⟨?_, ?_⟩
    · intro p d t hp
      rw [hn] at hp
      exact absurd hp (by simp)
    · rintro u₁ index t ⟨-, ⟨hb', -⟩ | ⟨-, hw', -⟩⟩
      · exact absurd hb' hb
      · exact absurd (run_det hw hw').1 (by simp)
  | @created p _ u₁ t₁ t₂ _ hun hc hw he =>
    -- a new mapping: the rest of the block is what could be copied
    have hdev := hun.dev
    have hn : s.view.find g.bStart = none := hun.1
    have hsmall := (hg.small hv.geom.size).2.2
    obtain ⟨index, t, hprep, hdata⟩ :=
      repairAndCreate_copied hc (by rw [hg.align]; exact hg.fit) (by rw [hg.align]; exact hsmall)
    rw [hg.align] at hdata
    rw [hstep.keeps_iff hv hg]
    trans ∀ k, g.Rest s.view.geom.reserve k →
      copied E t g.bStart (g.sStart - g.bStart) g.sCount k = t.disk (g.bStart + k)
    · refine forall_congr' fun k => forall_congr' fun hk => ?_
      have hdisk : t.disk (g.bStart + k) = s.disk (g.bStart + k) := by
        obtain ⟨hout, hlt⟩ := (hg.rest_iff k).1 hk
        have hres := not_reserved hlt
        rw [prepareCopy_disk hprep, hdev.disk]
        · rwa [hg.cmdRange_iff hv.geom.size]
        · rw [hdev.view]
          exact fun hfree => hres (hfree.reserved hv.geom)
      rw [created_contents hun.dev hv hg hn hc hw he hdata k, copyIn_outside hk.1, hg.contents_unmapped hn, hdisk]
    · refine ⟨fun hD => ⟨?_, ?_⟩, fun hD => hD.created u₁ index t hun hprep⟩
      · intro q d q' hq
        rw [hun.1] at hq
        exact absurd hq (by simp)
      · intro u₂ index' t' hun' hprep'
        obtain rfl := hun.unique hun'
        obtain ⟨-, rfl⟩ := run_det hprep hprep'
        exact hD

/-! ## Rounds of a read -/

/-- The block of the segment has no mapping and was not read in place: it is known to be bad, or the direct read
failed. -/
def Unread (E : Env) (bad : ℤ) (g : Seg) (u : World) : Prop :=
  u.swapFindSwapInfo g.bStart = none ∧
    (bad = g.blk ∨ (E.read u.tick ⟨g.sStart % 2 ^ 32, g.sCount % 2 ^ 16, 5⟩).isOk = false)

/-- The state after the direct read of a segment, if there is one. -/
def World.readTried (E : Env) (bad : ℤ) (g : Seg) (u : World) : World :=
  if bad = g.blk then u else u.answered (E.read u.tick ⟨g.sStart % 2 ^ 32, g.sCount % 2 ^ 16, 5⟩)

/-- How a round of a read comes to an end without failing. -/
inductive ReadVia (E : Env) (bad : ℤ) (g : Seg) (u : World) : Ret → World → Prop
  | served {u'} (hun : ¬ Unread E bad g u) : ReadVia E bad g u .ok u'
  | created {p t t' u'} (hun : Unread E bad g u)
      (hc : (repairAndCreate E g.sStart g.sCount).run (u.readTried E bad g) = some (some p, t))
      (hw : (flushSwapInfoData E p).run t = some (true, t'))
      (he : (enterCreated E p).run t' = some (true, u')) : ReadVia E bad g u .dirty u'

theorem coreReadBlock_via {r : Ret × (ℕ → Sector)} (h : (coreReadBlock E bad g buf).run s = some (r, s'))
    (hr : r.1 ≠ .err) : ReadVia E bad g s r.1 s' := by
  unfold coreReadBlock at h
  rw [run_get_bind] at h
  cases hf : s.swapFindSwapInfo g.bStart with
  | some p =>
    rw [hf] at h
    obtain ⟨buf', s₁, h1, h2⟩ := run_bind_iff.1 h
    obtain ⟨rfl, -⟩ := run_pure_iff.1 h2
    refine .served ?_
    rintro ⟨hn, -⟩
    rw [hf] at hn
    exact absurd hn (by simp)
  | none =>
    rw [hf] at h
    obtain ⟨⟨done, buf₁⟩, s₁, h1, h2⟩ := run_bind_iff.1 h
    -- the direct read, or none
    have htried : (done = false ↔ Unread E bad g s) ∧ s₁ = s.readTried E bad g := by
      unfold Unread World.readTried
      rw [hf]
      split at h1
      · rename_i hb
        obtain ⟨⟨ok, new⟩, s₂, h3, h4⟩ := run_bind_iff.1 h1
        unfold hdReadSectorRetry at h3
        rw [hdReadSector_run] at h3
        obtain ⟨he, hs⟩ := Prod.mk.inj (Option.some.inj h3)
        obtain ⟨hd, rfl⟩ := run_pure_iff.1 h4
        rw [(Prod.mk.inj hd).1, ← (Prod.mk.inj he).1, if_neg hb, ← hs]
        simp [hb]
      · rename_i hb
        obtain ⟨hd, rfl⟩ := run_pure_iff.1 h1
        rw [(Prod.mk.inj hd).1, if_pos (not_not.1 hb)]
        simp [not_not.1 hb]
    obtain ⟨hun, rfl⟩ := htried
    rw [run_get_bind] at h2
    cases done with
    | true =>
      obtain ⟨rfl, -⟩ := run_pure_iff.1 h2
      exact .served fun hn => absurd (hun.2 hn) (by simp)
    | false =>
      dsimp only at h2
      rw [if_neg (by simp)] at h2
      split at h2
      · obtain ⟨rfl, -⟩ := run_pure_iff.1 h2
        exact absurd rfl hr
      obtain ⟨o, s₂, h3, h4⟩ := run_bind_iff.1 h2
      cases o with
      | none =>
        obtain ⟨rfl, -⟩ := run_pure_iff.1 h4
        exact absurd rfl hr
      | some p =>
        dsimp only at h4
        rw [run_get_bind] at h4
        split at h4
        · exact (run_oops h4).elim
        obtain ⟨ok, s₃, h5, h6⟩ := run_bind_iff.1 h4
        cases ok with
        | false =>
          rw [if_neg (by simp)] at h6
          obtain ⟨v, s₄, -, h8⟩ := run_bind_iff.1 h6
          obtain ⟨rfl, -⟩ := run_pure_iff.1 h8
          exact absurd rfl hr
        | true =>
          rw [if_pos rfl] at h6
          obtain ⟨ok, s₄, h7, h8⟩ := run_bind_iff.1 h6
          obtain ⟨rfl, -⟩ := enterCreated_spec h7
          obtain ⟨rfl, rfl⟩ := run_pure_iff.1 h8
          exact .created (hun.1 rfl) h3 h5 h7

/-- A mapping is made for a block that is not read in place, and for no other. -/
theorem coreReadBlock_dirty_iff {r : Ret × (ℕ → Sector)} (h : (coreReadBlock E bad g buf).run s = some (r, s'))
    (hr : r.1 ≠ .err) : r.1 = .dirty ↔ Unread E bad g s := by
  have hvia := coreReadBlock_via h hr
  generalize r.1 = q at hvia
  cases hvia with
  | served hun => exact iff_of_false (by simp) hun
  | created hun hc hw he => exact iff_of_true rfl hun

/-- When a round of a read delivers what its segment contains: a mapping that is made holds zeros in the
segment. -/
def Delivers (E : Env) (bad : ℤ) (g : Seg) (u : World) : Prop :=
  Unread E bad g u → ∀ x, g.area x → u.disk x = zeroSector

/-- **A round of a read that does not fail** delivers the contents of its segment, exactly if these are zeros
where a mapping is made. -/
theorem coreReadBlock_delivers_iff {r : Ret} {buf' : ℕ → Sector}
    (h : (coreReadBlock E bad g buf).run s = some ((r, buf'), s')) (hr : r ≠ .err) (hv : s.view.Inv)
    (hg : g.Ok s.view.geom.reserve) :
    (∀ x, g.area x → buf' (g.off + (x - g.sStart)) = s.contents x) ↔ Delivers E bad g s := by
  have hdirty := coreReadBlock_dirty_iff h hr
  have hstep := coreReadBlock_step h
  unfold Delivers
  rw [← hdirty]
  cases r with
  | err => exact absurd rfl hr
  | ok => exact iff_of_true (fun x hx => hstep.read hv hg hx) fun hne => absurd hne (by simp)
  | dirty =>
    cases hstep with
    | @created _ b index d buf₁ _ hn hroom hb hi hfree hbit hseg hout hbuf hu =>
      have hle := hg.le
      rw [forall_prop_of_true rfl]
      refine forall_congr' fun x => forall_congr' fun hx => ?_
      have hblock := hg.block_of_area hx
      have hwin : g.off ≤ g.off + (x - g.sStart) ∧ g.off + (x - g.sStart) < g.off + g.sCount := by
        obtain ⟨h1, h2⟩ := hx
        omega
      obtain ⟨k, hk, hkx⟩ := blockBuf_offset d x
      rw [hblock] at hk hkx
      have hread : buf' (g.off + (x - g.sStart)) = zeroSector := by
        rw [hbuf ⟨hv, hg⟩]
        unfold Seg.fill
        rw [if_pos hwin]
        dsimp only
        have hidx : g.sStart - g.bStart + (g.off + (x - g.sStart) - g.off) = x - g.bStart := by
          obtain ⟨h1, h2⟩ := hx
          omega
        rw [hidx, hk]
        exact hseg ⟨hv, hg⟩ k (by rw [hkx]; exact hx)
      have hcont : s.contents x = s.disk x := by
        rw [contents_view, View.contents_unmapped (by rw [hblock]; exact hn)]
      rw [hread, hcont]
      exact eq_comm

/-! ## The loops -/

theorem Ret.join_ne_err {a b : Ret} (ha : a ≠ .err) (hb : b ≠ .err) : a.join b ≠ .err := by
  cases a <;> cases b <;> simp_all [Ret.join]

/-- A write of the segments `gs` gets to `g`, in state `u`. -/
def WriteGets (E : Env) (bad : ℤ) (buf : ℕ → Sector) (gs : List Seg) (s : World) (g : Seg) (u : World) : Prop :=
  ∃ gs₁ gs₂, gs = gs₁ ++ g :: gs₂ ∧ ∃ r, r ≠ .err ∧ (writeSegs E bad buf gs₁).run s = some (r, u)

/-- A read of the segments `gs` gets to `g`, in state `u`. -/
def ReadGets (E : Env) (bad : ℤ) (buf : ℕ → Sector) (gs : List Seg) (s : World) (g : Seg) (u : World) : Prop :=
  ∃ gs₁ gs₂, gs = gs₁ ++ g :: gs₂ ∧ ∃ r buf', r ≠ .err ∧ (readSegs E bad gs₁ buf).run s = some ((r, buf'), u)

theorem writeGets_cons {gs : List Seg} {r : Ret} {s₁ : World}
    (h : (coreWriteBlock E bad g buf).run s = some (r, s₁)) (hr : r ≠ .err) {g' : Seg} :
    WriteGets E bad buf (g :: gs) s g' u ↔ g' = g ∧ u = s ∨ WriteGets E bad buf gs s₁ g' u := by
  constructor
  · rintro ⟨gs₁, gs₂, hgs, r', hr', hrun⟩
    cases gs₁ with
    | nil =>
      obtain ⟨-, rfl⟩ := run_pure_iff.1 hrun
      exact Or.inl ⟨(List.cons.inj hgs).1.symm, rfl⟩
    | cons g₁ gs₁ =>
      obtain ⟨rfl, htail⟩ := List.cons.inj hgs
      unfold writeSegs at hrun
      rw [run_bind_of h, if_neg hr] at hrun
      obtain ⟨r₂, s₂, h2, h3⟩ := run_bind_iff.1 hrun
      obtain ⟨rfl, rfl⟩ := run_pure_iff.1 h3
      exact Or.inr ⟨gs₁, gs₂, htail, r₂, Ret.join_err hr', h2⟩
  · rintro (⟨rfl, rfl⟩ | ⟨gs₁, gs₂, hgs, r', hr', hrun⟩)
    · exact ⟨[], gs, rfl, .ok, by simp, rfl⟩
    · refine ⟨g :: gs₁, gs₂, by rw [hgs]; rfl, r.join r', Ret.join_ne_err hr hr', ?_⟩
      unfold writeSegs
      rw [run_bind_of h, if_neg hr]
      exact run_bind_of hrun

theorem readGets_cons {gs : List Seg} {r : Ret} {buf₁ : ℕ → Sector} {s₁ : World}
    (h : (coreReadBlock E bad g buf).run s = some ((r, buf₁), s₁)) (hr : r ≠ .err) {g' : Seg} :
    ReadGets E bad buf (g :: gs) s g' u ↔ g' = g ∧ u = s ∨ ReadGets E bad buf₁ gs s₁ g' u := by
  constructor
  · rintro ⟨gs₁, gs₂, hgs, r', buf', hr', hrun⟩
    cases gs₁ with
    | nil =>
      obtain ⟨-, rfl⟩ := run_pure_iff.1 hrun
      exact Or.inl ⟨(List.cons.inj hgs).1.symm, rfl⟩
    | cons g₁ gs₁ =>
      obtain ⟨rfl, htail⟩ := List.cons.inj hgs
      unfold readSegs at hrun
      rw [run_bind_of h] at hrun
      dsimp only at hrun
      rw [if_neg hr] at hrun
      obtain ⟨⟨r₂, buf₂⟩, s₂, h2, h3⟩ := run_bind_iff.1 hrun
      obtain ⟨he, rfl⟩ := run_pure_iff.1 h3
      obtain ⟨rfl, rfl⟩ := Prod.mk.inj he
      exact Or.inr ⟨gs₁, gs₂, htail, r₂, _, Ret.join_err hr', h2⟩
  · rintro (⟨rfl, rfl⟩ | ⟨gs₁, gs₂, hgs, r', buf', hr', hrun⟩)
    · exact ⟨[], gs, rfl, .ok, buf, by simp, rfl⟩
    · refine ⟨g :: gs₁, gs₂, by rw [hgs]; rfl, r.join r', buf', Ret.join_ne_err hr hr', ?_⟩
      unfold readSegs
      rw [run_bind_of h]
      dsimp only
      rw [if_neg hr]
      exact run_bind_of hrun

/-- **A write loop that does not fail** changes nothing but its segments, exactly if every round keeps the rest
of its block. -/
theorem writeSegs_keeps_iff {start : ℕ} : ∀ {gs : List Seg} {s s' : World} {r : Ret},
    (writeSegs E bad buf gs).run s = some (r, s') → r ≠ .err → s.view.Inv → SegsOk gs start s.view.geom.reserve →
    ((∀ x < s.view.geom.reserve, (∀ g ∈ gs, ¬ g.area x) → s'.contents x = s.contents x) ↔
      ∀ g u, WriteGets E bad buf gs s g u → KeepsRest E bad g (fun k => buf (g.off + k)) u) := by
  intro gs
  induction gs with
  | nil =>
    intro s s' r h hr hv hs
    obtain ⟨-, rfl⟩ := run_pure_iff.1 h
    refine iff_of_true (fun _ _ _ => rfl) ?_
    rintro g u ⟨gs₁, gs₂, hgs, -⟩
    exact absurd hgs (by simp)
  | cons g gs ih =>
    intro s s' r h hr hv hs
    have hg := hs.ok g List.mem_cons_self
    unfold writeSegs at h
    obtain ⟨r₁, s₁, h1, h2⟩ := run_bind_iff.1 h
    have hr₁ : r₁ ≠ .err := by
      rintro rfl
      rw [if_pos rfl] at h2
      exact hr (run_pure_iff.1 h2).1
    rw [if_neg hr₁] at h2
    obtain ⟨r₂, s₂, h3, h4⟩ := run_bind_iff.1 h2
    obtain ⟨rfl, rfl⟩ := run_pure_iff.1 h4
    have hstep := coreWriteBlock_step h1
    obtain ⟨hv₁, hgeom⟩ := hstep.inv hv hg
    have htail : SegsOk gs start s₁.view.geom.reserve := hgeom ▸ hs.tail
    have heff := writeSegs_effect h3 hv₁ htail
    have hrest := ih h3 (Ret.join_err hr) hv₁ htail
    rw [hgeom] at hrest
    -- the block of `g` is not touched again, and no other block was touched before
    have hlater : ∀ x < s.view.geom.reserve, swapSectorAlign x = g.bStart → s'.contents x = s₁.contents x := by
      intro x hx hb
      refine heff.frame x (hgeom ▸ hx) fun g' hg' => ?_
      rw [hb]
      exact (List.pairwise_cons.1 hs.distinct).1 g' hg'
    have hbefore : ∀ x < s.view.geom.reserve, swapSectorAlign x ≠ g.bStart → s₁.contents x = s.contents x :=
      fun x hx hb => hstep.frame hv hg hx hb
    have hsplit : (∀ x < s.view.geom.reserve, (∀ g' ∈ g :: gs, ¬ g'.area x) → s'.contents x = s.contents x) ↔
        (∀ x < s.view.geom.reserve, ¬ g.area x → s₁.contents x = s.contents x) ∧
          ∀ x < s.view.geom.reserve, (∀ g' ∈ gs, ¬ g'.area x) → s'.contents x = s₁.contents x := by
      constructor
      · intro hall
        refine ⟨fun x hx hout => ?_, fun x hx hout => ?_⟩
        · by_cases hb : swapSectorAlign x = g.bStart
          · rw [← hlater x hx hb]
            refine hall x hx (List.forall_mem_cons.2 ⟨hout, fun g' hg' ha => ?_⟩)
            exact hs.other hg' ha hb
          · exact hbefore x hx hb
        · by_cases hb : swapSectorAlign x = g.bStart
          · exact hlater x hx hb
          · rw [hbefore x hx hb]
            exact hall x hx (List.forall_mem_cons.2 ⟨fun ha => hb (hg.block_of_area ha), hout⟩)
      · rintro ⟨hone, hall⟩ x hx hout
        obtain ⟨h5, h6⟩ := List.forall_mem_cons.1 hout
        exact (hall x hx h6).trans (hone x hx h5)
    rw [hsplit, coreWriteBlock_keeps_iff h1 hr₁ hv hg, hrest]
    simp only [writeGets_cons h1 hr₁, or_imp, forall_and]
    refine and_congr_left' ?_
    constructor
    · rintro hk g' u ⟨rfl, rfl⟩
      exact hk
    · intro hk
      exact hk g s ⟨rfl, rfl⟩

/-- **A read loop that does not fail** delivers the contents of its segments, exactly if every round does. -/
theorem readSegs_delivers_iff {start : ℕ} : ∀ {gs : List Seg} {buf buf' : ℕ → Sector} {s s' : World} {r : Ret},
    (readSegs E bad gs buf).run s = some ((r, buf'), s') → r ≠ .err → s.view.Inv →
    SegsOk gs start s.view.geom.reserve →
    ((∀ g ∈ gs, ∀ x, g.area x → buf' (g.off + (x - g.sStart)) = s.contents x) ↔
      ∀ g u, ReadGets E bad buf gs s g u → Delivers E bad g u) := by
  intro gs
  induction gs with
  | nil =>
    intro buf buf' s s' r h hr hv hs
    refine iff_of_true (fun _ hg => absurd hg (by simp)) ?_
    rintro g u ⟨gs₁, gs₂, hgs, -⟩
    exact absurd hgs (by simp)
  | cons g gs ih =>
    intro buf buf' s s' r h hr hv hs
    have hg := hs.ok g List.mem_cons_self
    unfold readSegs at h
    obtain ⟨⟨r₁, buf₁⟩, s₁, h1, h2⟩ := run_bind_iff.1 h
    dsimp only at h2
    have hr₁ : r₁ ≠ .err := by
      rintro rfl
      rw [if_pos rfl] at h2
      exact hr (Prod.mk.inj (run_pure_iff.1 h2).1).1
    rw [if_neg hr₁] at h2
    obtain ⟨⟨r₂, buf₂⟩, s₂, h3, h4⟩ := run_bind_iff.1 h2
    obtain ⟨he, rfl⟩ := run_pure_iff.1 h4
    obtain ⟨rfl, rfl⟩ := Prod.mk.inj he
    have hstep := coreReadBlock_step h1
    obtain ⟨hv₁, hgeom⟩ := hstep.inv hv hg
    have htail : SegsOk gs start s₁.view.geom.reserve := hgeom ▸ hs.tail
    have heff := readSegs_effect h3 hv₁ htail
    have hrest := ih h3 (Ret.join_err hr) hv₁ htail
    -- the later rounds write elsewhere in the buffer, and find their blocks as they were
    have hone : (∀ x, g.area x → buf' (g.off + (x - g.sStart)) = s.contents x) ↔
        ∀ x, g.area x → buf₁ (g.off + (x - g.sStart)) = s.contents x := by
      refine forall_congr' fun x => forall_congr' fun hx => ?_
      have hbuf : buf' (g.off + (x - g.sStart)) = buf₁ (g.off + (x - g.sStart)) :=
        heff.buffer (Ret.join_err hr) _ ?_
      · rw [hbuf]
      intro g' hg' hwin
      have hp1 := hs.place g List.mem_cons_self
      have hp2 := hs.place g' (List.mem_cons_of_mem _ hg')
      have hx' : g'.area x := by
        obtain ⟨hx1, hx2⟩ := hx
        unfold Seg.area
        omega
      exact hs.other hg' hx' (hg.block_of_area hx)
    have hmore : (∀ g' ∈ gs, ∀ x, g'.area x → buf' (g'.off + (x - g'.sStart)) = s.contents x) ↔
        ∀ g' ∈ gs, ∀ x, g'.area x → buf' (g'.off + (x - g'.sStart)) = s₁.contents x := by
      refine forall_congr' fun g' => forall_congr' fun hg' => forall_congr' fun x => forall_congr' fun hx => ?_
      have hxR : x < s.view.geom.reserve := by
        have h5 := (hs.ok g' (List.mem_cons_of_mem _ hg')).user
        have h6 := hx.2
        omega
      rw [hstep.frame hv hg hxR fun _ => hs.other hg' hx]
    rw [List.forall_mem_cons, hone, hmore, coreReadBlock_delivers_iff h1 hr₁ hv hg, hrest]
    simp only [readGets_cons h1 hr₁, or_imp, forall_and]
    refine and_congr_left' ?_
    constructor
    · rintro hk g' u ⟨rfl, rfl⟩
      exact hk
    · intro hk
      exact hk g s ⟨rfl, rfl⟩

/-! ## Requests -/

theorem segments_place {o : Request} (hg : g ∈ segments o.start o.count) {x : ℕ} (hx : g.area x) :
    g.off + (x - g.sStart) = x - o.start := by
  obtain ⟨i, hi, rfl⟩ := mem_segments.1 hg
  exact (segment_off hi hx).2.2

theorem Request.gets_write (o : Request) (hw : o.isWrite = true) : o.Gets E s g u ↔
    s.core.deviceDead = 0 ∧ WriteGets E (badIndex o.bad) o.buf (visited o.start o.count) s.entered g u := by
  unfold Request.Gets WriteGets
  simp only [hw, if_true]

theorem Request.gets_read (o : Request) (hw : o.isWrite = false) : o.Gets E s g u ↔
    s.core.deviceDead = 0 ∧ ReadGets E (badIndex o.bad) o.buf (visited o.start o.count) s.entered g u := by
  unfold Request.Gets ReadGets
  simp only [hw, Bool.false_eq_true, if_false]

/-- A write request is refused, or runs the loop over its segments. -/
theorem serve_writes {o : Request} {a : Reply} (hw : o.isWrite = true) (h : (o.serve E).run s = some (a, s')) :
    a.ret = .err ∧ s' = s ∨ s.core.deviceDead = 0 ∧
      ∃ t, (writeSegs E (badIndex o.bad) o.buf (visited o.start o.count)).run s.entered = some (a.ret, t) ∧
        s' = { t with core := { t.core with user := t.core.user - 1 } } := by
  unfold Request.serve at h
  rw [if_pos hw] at h
  obtain ⟨r, s₁, h1, h2⟩ := run_bind_iff.1 h
  obtain ⟨rfl, rfl⟩ := run_pure_iff.1 h2
  unfold scsiSwapCoreWrite at h1
  rw [run_get_bind] at h1
  split at h1
  · exact Or.inl (run_pure_iff.1 h1)
  rename_i hdead
  obtain ⟨v, s₁, h3, h4⟩ := run_bind_iff.1 h1
  obtain rfl := run_modify_iff.1 h3
  obtain ⟨r', t, h5, h6⟩ := run_bind_iff.1 h4
  obtain ⟨v, s₃, h7, h8⟩ := run_bind_iff.1 h6
  obtain rfl := run_modify_iff.1 h7
  obtain ⟨rfl, rfl⟩ := run_pure_iff.1 h8
  rw [coreWriteLoop_visited] at h5
  exact Or.inr ⟨not_not.1 hdead, t, h5, rfl⟩

/-- So does a read request. -/
theorem serve_reads {o : Request} {a : Reply} (hw : o.isWrite = false) (h : (o.serve E).run s = some (a, s')) :
    a.ret = .err ∧ s' = s ∨ s.core.deviceDead = 0 ∧
      ∃ t, (readSegs E (badIndex o.bad) (visited o.start o.count) o.buf).run s.entered =
        some ((a.ret, a.buf), t) ∧
        s' = { t with core := { t.core with user := t.core.user - 1 } } := by
  unfold Request.serve at h
  rw [if_neg (by simp [hw])] at h
  obtain ⟨⟨r, buf'⟩, s₁, h1, h2⟩ := run_bind_iff.1 h
  obtain ⟨rfl, rfl⟩ := run_pure_iff.1 h2
  unfold scsiSwapCoreRead at h1
  rw [run_get_bind] at h1
  split at h1
  · obtain ⟨he, hs⟩ := run_pure_iff.1 h1
    exact Or.inl ⟨(Prod.mk.inj he).1, hs⟩
  rename_i hdead
  obtain ⟨v, s₁, h3, h4⟩ := run_bind_iff.1 h1
  obtain rfl := run_modify_iff.1 h3
  obtain ⟨r', t, h5, h6⟩ := run_bind_iff.1 h4
  obtain ⟨v, s₃, h7, h8⟩ := run_bind_iff.1 h6
  obtain rfl := run_modify_iff.1 h7
  obtain ⟨rfl, rfl⟩ := run_pure_iff.1 h8
  rw [coreReadLoop_visited] at h5
  exact Or.inr ⟨not_not.1 hdead, t, h5, rfl⟩

/-- The segments of a request that fits. -/
theorem Fits.segsOk {start count R : ℕ} (hf : Fits start count R) : SegsOk (visited start count) start R := by
  rw [visited_eq hf.le hf.count, segments_eq]
  exact segmentsFrom_ok hf (by omega)

theorem Fits.covers_iff {o : Request} {R : ℕ} (hf : Fits o.start o.count R) (x : ℕ) :
    (∃ g ∈ visited o.start o.count, g.area x) ↔ o.Covers x := by
  rw [visited_eq hf.le hf.count]
  constructor
  · rintro ⟨g, hg, hx⟩
    exact segments_covers hg hx
  · intro hx
    obtain ⟨g, hg, hx, -⟩ := covers_segment hx
    exact ⟨g, hg, hx⟩

/-- **A write request that does not fail.** -/
theorem serve_keeps_iff {o : Request} {a : Reply} (hw : o.isWrite = true) (h : (o.serve E).run s = some (a, s'))
    (hr : a.ret ≠ .err) (hv : s.view.Inv) (hf : Fits o.start o.count s.view.geom.reserve) :
    (∀ x < s.view.geom.reserve, ¬ o.Covers x → s'.contents x = s.contents x) ↔
      ∀ g u, o.Gets E s g u → KeepsRest E (badIndex o.bad) g (fun k => o.buf (g.off + k)) u := by
  obtain ⟨hdead, t, hloop, rfl⟩ := (serve_writes hw h).resolve_left fun hrefused => hr hrefused.1
  have hkeeps := writeSegs_keeps_iff hloop hr hv hf.segsOk
  trans ∀ x < s.view.geom.reserve, (∀ g ∈ visited o.start o.count, ¬ g.area x) → t.contents x = s.contents x
  · refine forall_congr' fun x => forall_congr' fun _ => imp_congr_left ?_
    rw [← hf.covers_iff x]
    push Not
    exact Iff.rfl
  · refine hkeeps.trans ?_
    refine forall_congr' fun g => forall_congr' fun u => imp_congr_left ?_
    rw [o.gets_write hw, and_iff_right hdead]

/-- **A read request that does not fail.** -/
theorem serve_delivers_iff {o : Request} {a : Reply} (hw : o.isWrite = false)
    (h : (o.serve E).run s = some (a, s'))
    (hr : a.ret ≠ .err) (hv : s.view.Inv) (hf : Fits o.start o.count s.view.geom.reserve) :
    (∀ x, o.Covers x → a.buf (x - o.start) = s.contents x) ↔
      ∀ g u, o.Gets E s g u → Delivers E (badIndex o.bad) g u := by
  obtain ⟨hdead, t, hloop, rfl⟩ := (serve_reads hw h).resolve_left fun hrefused => hr hrefused.1
  have hdelivers := readSegs_delivers_iff hloop hr hv hf.segsOk
  trans ∀ g ∈ visited o.start o.count, ∀ x, g.area x → a.buf (g.off + (x - g.sStart)) = s.contents x
  · rw [visited_eq hf.le hf.count]
    constructor
    · intro hall g hg x hx
      rw [segments_place hg hx]
      exact hall x (segments_covers hg hx)
    · intro hall x hx
      obtain ⟨g, hg, hx, hoff⟩ := covers_segment hx
      rw [← hoff]
      exact hall g hg x hx
  · refine hdelivers.trans ?_
    refine forall_congr' fun g => forall_congr' fun u => imp_congr_left ?_
    rw [o.gets_read hw, and_iff_right hdead]

/-! ## Bios -/

/-- A bio that waits for the worker: the item, and the data. -/
structure BioCall where
  item : SwapBioItem
  bio : Bio
  buf : ℕ → Sector

namespace BioCall

def request (c : BioCall) : Request := c.item.request c.bio c.buf

/-- The worker's run for it: the error the bio is ended with, and its data after a read. -/
def handle (E : Env) (c : BioCall) : SwapM (ℤ × (ℕ → Sector)) := swapBioWorkHandler E c.item c.bio c.buf

/-- It ends before the reserve, on a disk that 32-bit sector numbers reach. -/
def Fits (c : BioCall) (s : World) : Prop :=
  ScsiSwap.Fits c.request.start c.request.count s.core.sectorReserveStart

/-- What a disk means by success: a read delivers the contents of its sectors, and a write leaves those of all
other user sectors alone. -/
def Honest (c : BioCall) (s s' : World) (buf' : ℕ → Sector) : Prop :=
  if c.bio.isWrite then
    ∀ x < s.core.sectorReserveStart, ¬ c.request.Covers x → s'.contents x = s.contents x
  else ∀ x, c.request.Covers x → buf' (x - c.request.start) = s.contents x

/-- The same for the round for segment `g`, in terms of what the round finds. -/
def HonestRound (E : Env) (c : BioCall) (g : Seg) (u : World) : Prop :=
  if c.bio.isWrite then KeepsRest E (badIndex c.item.badSec) g (fun k => c.buf (g.off + k)) u
  else Delivers E (badIndex c.item.badSec) g u

end BioCall

/-- A bio that is ended with error 0: the core was called, and did not fail. -/
theorem handle_success {c : BioCall} {buf' : ℕ → Sector} (h : (c.handle E).run s = some ((0, buf'), s')) :
    0 ≤ c.item.size ∧ ∃ s₁ a, (kmalloc E).run s = some (true, s₁) ∧ (c.request.serve E).run s₁ = some (a, s') ∧
      a.ret ≠ .err ∧ a.buf = buf' := by
  unfold BioCall.handle swapBioWorkHandler at h
  obtain ⟨ok, s₁, h1, h2⟩ := run_bind_iff.1 h
  split at h2
  · rename_i hok
    obtain ⟨a, s₂, h3, h4⟩ := run_bind_iff.1 h2
    split at h4
    · exact absurd (Prod.mk.inj (run_pure_iff.1 h4).1).1 (by decide)
    · rename_i hr
      obtain ⟨he, rfl⟩ := run_pure_iff.1 h4
      obtain ⟨rfl, hsize⟩ := hok
      exact ⟨hsize, s₁, a, h1, h3, hr, (Prod.mk.inj he).2.symm⟩
  · exact absurd (Prod.mk.inj (run_pure_iff.1 h2).1).1 (by decide)

/-- What a run of the worker comes to: it ends at once, or the core is called. -/
theorem handle_cases {c : BioCall} {r : ℤ × (ℕ → Sector)} (h : (c.handle E).run s = some (r, s')) :
    ∃ ok s₁, (kmalloc E).run s = some (ok, s₁) ∧ (s' = s₁ ∨ ok = true ∧ 0 ≤ c.item.size ∧
      ∃ a, (c.request.serve E).run s₁ = some (a, s')) := by
  unfold BioCall.handle swapBioWorkHandler at h
  obtain ⟨ok, s₁, h1, h2⟩ := run_bind_iff.1 h
  refine ⟨ok, s₁, h1, ?_⟩
  split at h2
  · rename_i hok
    obtain ⟨a, s₂, h3, h4⟩ := run_bind_iff.1 h2
    have hs : s' = s₂ := by
      split at h4
      · exact (run_pure_iff.1 h4).2
      · exact (run_pure_iff.1 h4).2
    rw [hs]
    exact Or.inr ⟨hok.1, hok.2, a, h3⟩
  · exact Or.inl (run_pure_iff.1 h2).2

theorem handle_inv {c : BioCall} {r : ℤ × (ℕ → Sector)} (h : (c.handle E).run s = some (r, s')) (hv : s.view.Inv)
    (hf : c.Fits s) : s'.view.Inv ∧ s'.view.geom = s.view.geom := by
  obtain ⟨ok, s₁, hmem, hcases⟩ := handle_cases h
  have hview : s₁.view = s.view := (kmalloc_dev (A := fun _ => False) hmem).view
  obtain rfl | ⟨-, -, a, hserve⟩ := hcases
  · exact ⟨hview ▸ hv, congrArg View.geom hview⟩
  · have hserved := serve_served hserve (hview ▸ hv) (by rw [hview]; exact hf)
    exact ⟨hserved.inv, hserved.geom.trans (congrArg View.geom hview)⟩

/-- `kmalloc` changes nothing but the time. -/
theorem kmalloc_contents {ok : Bool} (h : (kmalloc E).run s = some (ok, s')) (x : ℕ) :
    s'.contents x = s.contents x := by
  have hdev := kmalloc_dev (A := fun _ => False) h
  rw [contents_view, contents_view, hdev.view, show s'.disk = s.disk from funext fun y => hdev.disk y id]

/-- A bio that is ended with error 0 is honest, exactly if every round it gets to is. -/
theorem handle_honest_iff (hv : s.view.Inv) {c : BioCall} (hf : c.Fits s) {buf' : ℕ → Sector}
    (h : (c.handle E).run s = some ((0, buf'), s')) :
    c.Honest s s' buf' ↔ ∀ g u, c.item.Gets E c.bio c.buf s g u → c.HonestRound E g u := by
  obtain ⟨hsize, s₁, a, hmem, hserve, hr, rfl⟩ := handle_success h
  have hview : s₁.view = s.view := (kmalloc_dev (A := fun _ => False) hmem).view
  have hv₁ : s₁.view.Inv := hview ▸ hv
  have hf₁ : Fits c.request.start c.request.count s₁.view.geom.reserve := by
    rw [hview]
    exact hf
  have hgets : ∀ g u, c.item.Gets E c.bio c.buf s g u ↔ c.request.Gets E s₁ g u := by
    intro g u
    constructor
    · rintro ⟨-, t, ht, hg⟩
      obtain ⟨-, rfl⟩ := run_det hmem ht
      exact hg
    · exact fun hg => ⟨hsize, s₁, hmem, hg⟩
  unfold BioCall.Honest BioCall.HonestRound
  simp only [hgets, ← kmalloc_contents hmem]
  cases hw : c.bio.isWrite with
  | true =>
    have hkeeps := serve_keeps_iff (o := c.request) hw hserve hr hv₁ hf₁
    rw [hview] at hkeeps
    exact hkeeps
  | false => exact serve_delivers_iff (o := c.request) hw hserve hr hv₁ hf₁

/-- **When success means what a disk means by it.** After any bios that end before the reserve, whatever the
device does, a bio that ends there and is ended with error 0 is honest, exactly if every round it gets to is.
For a read: a block that is neither mapped nor read in place must have zeros in the sectors that are read. For
a write: when a mapping has to be moved, the rest of the old block must be read back as it was in memory, and
when a mapping is made, the rest of the block must be copied as it is on the disk. -/
theorem success_honest_iff {s₀ : World} (hv : s₀.view.Inv)
    (hreach : Reach (BioCall.handle E) (fun t c => c.Fits t) s₀ s) {c : BioCall}
    (hf : c.Fits s) {buf' : ℕ → Sector} (h : (c.handle E).run s = some ((0, buf'), s')) :
    c.Honest s s' buf' ↔ ∀ g u, c.item.Gets E c.bio c.buf s g u → c.HonestRound E g u := by
  have hinv : s.view.Inv := hreach.inv (I := fun t : World => t.view.Inv) hv fun t c r t' ht hc hrun =>
    (handle_inv hrun ht hc).1
  exact handle_honest_iff hinv hf h

/-- A blank disk with ones in sector 5. -/
def World.marked : World := { World.blank with disk := fun x => if x = 5 then fun _ => 1 else zeroSector }

/-- A bio for one sector of a disk as a whole. -/
def BioCall.one (isWrite : Bool) (sector : ℕ) (b : ByteCodec.Byte) : BioCall :=
  ⟨⟨sector, 512, noBadSec⟩, ⟨isWrite, sector, 512, true⟩, fun _ _ => b⟩

theorem copied_of_reads (hE : ∀ n c, E.read n c = .ok) {src off n : ℕ} {k : Fin 128}
    (hk : k < off ∨ off + n ≤ k) : copied E t src off n k = t.disk (src + k) := by
  unfold copied
  rcases hk with hk | hk
  · rw [if_pos hk, hE]
    rfl
  · rw [if_neg (by omega), if_neg (by omega), hE]
    rfl

/-- A write of sector 6, which the disk refuses: a mapping is made, and sector 5 is copied to it. -/
theorem success_honest_copied :
    let E := Env.refusing fun c _ => c.lba = 6
    let c := BioCall.one true 6 2
    ∃ s s' buf', (scsiSwapInit E 1000).run World.marked = some (true, s) ∧
      (c.handle E).run s = some ((0, buf'), s') ∧ s'.core.infoList.length = 1 ∧ c.Honest s s' buf' := by
  intro E c
  have hrun : ((do
      let ok ← scsiSwapInit E 1000
      let s ← get
      let r ← c.handle E
      let s' ← get
      return (ok, s.core.infoList, r.1, s'.core.infoList.length) : SwapM (Bool × List ℕ × ℤ × ℕ)).run
      World.marked).map Prod.fst = some (true, [], 0, 1) := by decide +kernel
  obtain ⟨s₂, h⟩ := run_of_result hrun
  obtain ⟨ok, s, h1, h⟩ := run_bind_iff.1 h
  rw [run_get_bind] at h
  obtain ⟨⟨e, buf'⟩, s', h2, h⟩ := run_bind_iff.1 h
  rw [run_get_bind] at h
  obtain ⟨he, -⟩ := run_pure_iff.1 h
  simp only [Prod.mk.injEq] at he
  obtain ⟨rfl, hlist, rfl, hlen⟩ := he
  have hz : ZeroReserve 1000 World.marked.disk := by
    intro k hk
    simp only [maxReservedSector] at hk
    exact if_neg (by omega)
  obtain ⟨hv, hres, -⟩ := scsiSwapInit_zero (refusing_noForgedEntry _) (by decide) hz h1
  have hres : s.core.sectorReserveStart = 1000 := hres
  have hf : c.Fits s := by
    unfold BioCall.Fits
    rw [hres]
    exact fits_of_small (by decide) (by decide)
  refine ⟨s, s', buf', h1, h2, hlen.symm, (success_honest_iff hv .start hf h2).2 ?_⟩
  rintro g u ⟨-, s₁, hmem, hgets⟩
  have hs₁ : s₁.core = s.core := by
    unfold kmalloc at hmem
    rw [run_get_bind, run_set_bind] at hmem
    obtain ⟨-, rfl⟩ := run_pure_iff.1 hmem
    rfl
  obtain ⟨-, gs₁, gs₂, hvis, r, -, hrounds⟩ := (c.request.gets_write rfl).1 hgets
  -- the one round, in the state after `kmalloc`
  rw [visited_eq hf.le hf.count] at hvis
  have hlen : (segments c.request.start c.request.count).length = 1 := by
    unfold segments
    rw [List.length_map, List.length_range]
    decide
  obtain rfl : gs₁ = [] := by
    rw [hvis, List.length_append, List.length_cons] at hlen
    exact List.eq_nil_of_length_eq_zero (by omega)
  obtain ⟨-, rfl⟩ := run_pure_iff.1 hrounds
  obtain ⟨i, hi, rfl⟩ := mem_segments.1 (hvis ▸ List.mem_append_right _ List.mem_cons_self)
  have hg := segment_ok hf hi
  refine ⟨?_, ?_⟩
  · intro p d t hp
    have hnil : s₁.entered.core.infoList = [] := (congrArg Core.infoList hs₁).trans hlist.symm
    have hmem := (View.find_some (v := s₁.entered.view) hp).1
    rw [show s₁.entered.view.list = [] from hnil] at hmem
    exact absurd hmem (by simp)
  · intro u₁ index t hun hprep k hk
    refine copied_of_reads (fun _ _ => rfl) ?_
    have hout := hk.1
    unfold Outside at hout
    rwa [hg.align] at hout

/-- **Zeros in place of data.** The first seven sectors are bad, and sector 5 has ones: a read of sector 5
succeeds and delivers zeros, and after a write of sector 6, which succeeds, sector 5 is zero. -/
theorem success_dishonest :
    let E := Env.scarred fun lba => lba < 7
    ∃ s, (scsiSwapInit E 1000).run World.marked = some (true, s) ∧
      (∃ s' buf', ((BioCall.one false 5 0).handle E).run s = some ((0, buf'), s') ∧
        ¬ (BioCall.one false 5 0).Honest s s' buf') ∧
      ∃ s' buf', ((BioCall.one true 6 2).handle E).run s = some ((0, buf'), s') ∧
        ¬ (BioCall.one true 6 2).Honest s s' buf' := by
  intro E
  have hrun : ((do
      let ok ← scsiSwapInit E 1000
      let s ← get
      let r ← (BioCall.one false 5 0).handle E
      set s
      let q ← (BioCall.one true 6 2).handle E
      let t ← get
      return ((ok, s.core.sectorReserveStart, s.contents 5 0), (r.1, r.2 0 0), q.1, t.contents 5 0) :
      SwapM ((Bool × ℕ × ByteCodec.Byte) × (ℤ × ByteCodec.Byte) × ℤ × ByteCodec.Byte)).run World.marked).map
      Prod.fst = some ((true, 1000, 1), (0, 0), 0, 0) := by decide +kernel
  obtain ⟨s₂, h⟩ := run_of_result hrun
  obtain ⟨ok, s, h1, h⟩ := run_bind_iff.1 h
  rw [run_get_bind] at h
  obtain ⟨⟨e, buf'⟩, s', h2, h⟩ := run_bind_iff.1 h
  rw [run_set_bind] at h
  obtain ⟨⟨e', buf''⟩, t, h3, h⟩ := run_bind_iff.1 h
  rw [run_get_bind] at h
  obtain ⟨he, -⟩ := run_pure_iff.1 h
  simp only [Prod.mk.injEq] at he
  obtain ⟨⟨rfl, hres, hold⟩, ⟨rfl, hread⟩, rfl, hafter⟩ := he
  refine ⟨s, h1, ⟨s', buf', h2, fun hD => ?_⟩, t, buf'', h3, fun hD => ?_⟩
  · have hD : buf' 0 = s.contents 5 := hD 5 (by decide)
    rw [← hD, ← hread] at hold
    exact absurd hold (by decide)
  · have hD : t.contents 5 = s.contents 5 := hD 5 (by omega) (by decide)
    rw [← hD, ← hafter] at hold
    exact absurd hold (by decide)

end ScsiSwap
