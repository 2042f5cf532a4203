import ScsiSwap.Proof.Start

/-!
# From rounds to requests

A request is a loop of rounds, one per block. What every round does to the state, the loops and
the request do, if it composes (`RoundRel`):

* `coreWriteLoop_rounds`, `writeSegs_rounds`, `readSegs_rounds`, `serve_rounds`;
* `serve_grows`: the mapping list only grows at its end, and no entry changes its source;
* `mapping_list_well_formed`: the representation invariant of the list, between any two requests.
-/

namespace ScsiSwap

open StateOption

variable {E : Env} {s s' : World} {v w : View}

/-- A relation between states that composes, and does not look at the number of callers. -/
structure RoundRel (Q : World → World → Prop) : Prop where
  refl : ∀ s, Q s s
  trans : ∀ s t u, Q s t → Q t u → Q s u
  enter : ∀ s n, Q s { s with core := { s.core with user := n } }

variable {Q : World → World → Prop}

/-! ## Rounds -/

/-- The rounds of the write loop that starts in `s`: the state before each, and its segment. -/
inductive WriteRound (E : Env) (start : ℕ) (bad : ℤ) (buf : ℕ → Sector) :
    ℕ → ℕ → ℕ → ℕ → World → Seg → World → Prop
  | here {n i count off : ℕ} {s : World} :
      WriteRound E start bad buf (n + 1) i count off s (segAt start i count off) s
  | next {n i count off : ℕ} {s s₁ t : World} {g : Seg} {r : Ret}
      (h : (coreWriteBlock E bad (segAt start i count off) buf).run s = some (r, s₁)) (hr : r ≠ .err)
      (hn : WriteRound E start bad buf n (i + 1) (count - (segAt start i count off).sCount)
        (off + (segAt start i count off).sCount) s₁ g t) :
      WriteRound E start bad buf (n + 1) i count off s g t

theorem WriteRound.mem {start : ℕ} {bad : ℤ} {buf : ℕ → Sector} {n i count off : ℕ} {t : World} {g : Seg}
    (h : WriteRound E start bad buf n i count off s g t) : g ∈ visitedFrom start n i count off := by
  induction h with
  | here => exact List.mem_cons_self
  | next _ _ _ ih => exact List.mem_cons_of_mem _ ih

theorem coreWriteLoop_rounds (hQ : RoundRel Q) {start : ℕ} {bad : ℤ} {buf : ℕ → Sector} :
    ∀ {n i count off : ℕ} {s s' : World} {r : Ret},
      (coreWriteLoop E start bad buf n i count off).run s = some (r, s') →
      (∀ g t r t', WriteRound E start bad buf n i count off s g t →
        (coreWriteBlock E bad g buf).run t = some (r, t') → Q t t') → Q s s' := by
  intro n
  induction n with
  | zero =>
    intro i count off s s' r h _
    obtain ⟨-, rfl⟩ := run_pure_iff.1 h
    exact hQ.refl _
  | succ n ih =>
    intro i count off s s' r h hs
    obtain ⟨r₁, s₁, h1, h2⟩ := run_bind_iff.1 h
    have hone := hs _ _ _ _ .here h1
    by_cases hr : r₁ = .err
    · rw [if_pos hr] at h2
      obtain ⟨-, rfl⟩ := run_pure_iff.1 h2
      exact hone
    · rw [if_neg hr] at h2
      obtain ⟨r₂, s₂, h3, h4⟩ := run_bind_iff.1 h2
      obtain ⟨-, rfl⟩ := run_pure_iff.1 h4
      exact hQ.trans _ _ _ hone (ih h3 fun g t r t' hg => hs g t r t' (.next h1 hr hg))

theorem writeSegs_rounds (hQ : RoundRel Q) {bad : ℤ} {buf : ℕ → Sector}
    (hs : ∀ g t r t', (coreWriteBlock E bad g buf).run t = some (r, t') → Q t t') :
    ∀ {gs : List Seg} {s s' : World} {r : Ret}, (writeSegs E bad buf gs).run s = some (r, s') → Q s s' := by
  intro gs
  induction gs with
  | nil =>
    intro s s' r h
    obtain ⟨-, rfl⟩ := run_pure_iff.1 h
    exact hQ.refl _
  | cons g gs ih =>
    intro s s' r h
    obtain ⟨r₁, s₁, h1, h2⟩ := run_bind_iff.1 h
    have hone := hs _ _ _ _ h1
    split at h2
    · obtain ⟨-, rfl⟩ := run_pure_iff.1 h2
      exact hone
    · obtain ⟨r₂, s₂, h3, h4⟩ := run_bind_iff.1 h2
      obtain ⟨-, rfl⟩ := run_pure_iff.1 h4
      exact hQ.trans _ _ _ hone (ih h3)

theorem readSegs_rounds (hQ : RoundRel Q) {bad : ℤ} :
    ∀ {gs : List Seg} {buf : ℕ → Sector} {s s' : World} {r : Ret × (ℕ → Sector)},
      (∀ g ∈ gs, ∀ buf t r t', (coreReadBlock E bad g buf).run t = some (r, t') → Q t t') →
      (readSegs E bad gs buf).run s = some (r, s') → Q s s' := by
  intro gs
  induction gs with
  | nil =>
    intro buf s s' r _ h
    obtain ⟨-, rfl⟩ := run_pure_iff.1 h
    exact hQ.refl _
  | cons g gs ih =>
    intro buf s s' r hs h
    obtain ⟨⟨r₁, buf₁⟩, s₁, h1, h2⟩ := run_bind_iff.1 h
    have hone := hs g List.mem_cons_self _ _ _ _ h1
    dsimp only at h2
    split at h2
    · obtain ⟨-, rfl⟩ := run_pure_iff.1 h2
      exact hone
    · obtain ⟨r₂, s₂, h3, h4⟩ := run_bind_iff.1 h2
      obtain ⟨-, rfl⟩ := run_pure_iff.1 h4
      exact hQ.trans _ _ _ hone (ih (fun g hg => hs g (List.mem_cons_of_mem _ hg)) h3)

/-! ## Requests -/

/-- **What the rounds do, the request does.** -/
theorem serve_rounds (hQ : RoundRel Q) {o : Request} {a : Reply} (h : (o.serve E).run s = some (a, s'))
    (hw : o.isWrite = true → ∀ g t r t', WriteRound E o.start (badIndex o.bad) o.buf
      (getSwapBlockCount o.start (s32 o.count)).toNat 0 o.count 0
        { s with core := { s.core with user := s.core.user + 1 } } g t →
      (coreWriteBlock E (badIndex o.bad) g o.buf).run t = some (r, t') → Q t t')
    (hr : ∀ g ∈ visited o.start o.count, ∀ buf t r t',
      (coreReadBlock E (badIndex o.bad) g buf).run t = some (r, t') → Q t t') : Q s s' := by
  unfold Request.serve at h
  split at h
  · rename_i hwrite
    obtain ⟨r, s₁, h1, h2⟩ := run_bind_iff.1 h
    obtain ⟨-, rfl⟩ := run_pure_iff.1 h2
    unfold scsiSwapCoreWrite at h1
    rw [run_get_bind] at h1
    split at h1
    · obtain ⟨-, rfl⟩ := run_pure_iff.1 h1
      exact hQ.refl _
    obtain ⟨u, s₂, h3, h4⟩ := run_bind_iff.1 h1
    obtain rfl := run_modify_iff.1 h3
    obtain ⟨r', s₃, h5, h6⟩ := run_bind_iff.1 h4
    obtain ⟨u, s₄, h7, h8⟩ := run_bind_iff.1 h6
    obtain rfl := run_modify_iff.1 h7
    obtain ⟨-, rfl⟩ := run_pure_iff.1 h8
    have hloop := coreWriteLoop_rounds hQ h5 (hw hwrite)
    exact hQ.trans _ _ _ (hQ.enter _ _) (hQ.trans _ _ _ hloop (hQ.enter _ _))
  · obtain ⟨r, s₁, h1, h2⟩ := run_bind_iff.1 h
    obtain ⟨-, rfl⟩ := run_pure_iff.1 h2
    unfold scsiSwapCoreRead at h1
    rw [run_get_bind] at h1
    split at h1
    · obtain ⟨-, rfl⟩ := run_pure_iff.1 h1
      exact hQ.refl _
    obtain ⟨u, s₂, h3, h4⟩ := run_bind_iff.1 h1
    obtain rfl := run_modify_iff.1 h3
    obtain ⟨r', s₃, h5, h6⟩ := run_bind_iff.1 h4
    obtain ⟨u, s₄, h7, h8⟩ := run_bind_iff.1 h6
    obtain rfl := run_modify_iff.1 h7
    obtain ⟨-, rfl⟩ := run_pure_iff.1 h8
    have hloop := readSegs_rounds hQ hr (coreReadLoop_visited .. ▸ h5)
    exact hQ.trans _ _ _ (hQ.enter _ _) (hQ.trans _ _ _ hloop (hQ.enter _ _))

/-! ## The mapping list -/

/-- The list of `w` continues that of `v`, with the same sources. -/
structure View.Grows (v w : View) : Prop where
  brk : v.brk ≤ w.brk
  old : (∀ p ∈ v.list, p < v.brk) → ∀ p ∈ w.list, p < w.brk
  list : v.list <+: w.list
  src : ∀ p < v.brk, (w.info p).table.srcSec = (v.info p).table.srcSec

theorem View.Grows.refl (v : View) : v.Grows v := ⟨le_rfl, fun h => h, List.prefix_rfl, fun _ _ => rfl⟩

theorem View.Grows.trans {u : View} (h1 : u.Grows v) (h2 : v.Grows w) : u.Grows w :=
  ⟨h1.brk.trans h2.brk, fun h => h2.old (h1.old h), h1.list.trans h2.list,
    fun p hp => (h2.src p (hp.trans_le h1.brk)).trans (h1.src p hp)⟩

theorem View.Keep.grows (h : v.Keep w) : v.Grows w :=
  ⟨h.brk, fun ho p hp => (ho p (h.list ▸ hp)).trans_le h.brk, h.list ▸ List.prefix_rfl,
    fun p hp => by rw [h.info p hp]⟩

theorem View.SameBut.grows {p : ℕ} (h : v.SameBut w p) : v.Grows w := by
  refine ⟨h.brk.ge, fun ho q hq => h.brk ▸ ho q (h.list ▸ hq), h.list ▸ List.prefix_rfl, ?_⟩
  intro q _
  by_cases hq : q = p
  · rw [hq]; exact h.src
  · rw [h.info q hq]

theorem View.create_grows (v : View) (b : BitVec 1024) (src index : ℕ) (d : Block) :
    v.Grows (v.create b src index d) := by
  refine ⟨Nat.le_succ _, ?_, List.prefix_append _ _, ?_⟩
  · intro ho p hp
    show p < v.brk + 1
    rcases List.mem_append.1 (show p ∈ v.list ++ [v.brk] from hp) with hp | hp
    · exact (ho p hp).trans (Nat.lt_succ_self _)
    · rw [List.mem_singleton.1 hp]
      exact Nat.lt_succ_self _
  · intro p hp
    rw [View.create_info_old _ _ _ _ _ hp]

theorem WriteStep.grows {g : Seg} {src : ℕ → Sector} {r : Ret} (h : WriteStep E s g src r s') :
    s.view.Grows s'.view := by
  cases h with
  | hit hp hw hu => rw [hu.view]; exact hw.sameBut.grows
  | direct hn hu hd => rw [hu.view]; exact .refl _
  | failed hn hk hu => rw [hu.view]; exact hk.grows
  | created hn hroom hb hi hfree hbit hseg hcopy hu => rw [hu.view]; exact View.create_grows ..

theorem ReadStep.grows {g : Seg} {buf : ℕ → Sector} {r : Ret × (ℕ → Sector)} (h : ReadStep E s g buf r s') :
    s.view.Grows s'.view := by
  cases h with
  | hit hp hd hbuf => exact .refl _
  | direct hn hu hbuf => rw [hu.view]; exact .refl _
  | failed hn hk hu => rw [hu.view]; exact hk.grows
  | created hn hroom hb hi hfree hbit hseg hout hbuf hu => rw [hu.view]; exact View.create_grows ..

theorem grows_roundRel : RoundRel fun s s' => s.view.Grows s'.view :=
  ⟨fun _ => .refl _, fun _ _ _ h1 h2 => h1.trans h2, fun _ _ => .refl _⟩

theorem serve_grows {o : Request} {a : Reply} (h : (o.serve E).run s = some (a, s')) : s.view.Grows s'.view :=
  serve_rounds grows_roundRel h (fun _ _ _ _ _ _ hb => (coreWriteBlock_step hb).grows)
    fun _ _ _ _ _ _ hb => (coreReadBlock_step hb).grows

/-- The entries of the list are well formed, and there is at most one for each block below `R`. -/
structure World.ListOk (R : ℕ) (s : World) : Prop where
  distinct : (s.core.infoList.map fun p => (s.heap p).table.srcSec).Nodup
  aligned : ∀ p ∈ s.core.infoList, 128 ∣ (s.heap p).table.srcSec.toNat
  below : ∀ p ∈ s.core.infoList, (s.heap p).table.srcSec.toNat < R
  size : ∀ p ∈ s.core.infoList, (s.heap p).table.secSize = 128
  index : ∀ p ∈ s.core.infoList, (s.heap p).table.index.toNat < 1024
  place : ∀ p ∈ s.core.infoList,
    (s.heap p).table.swapSec.toNat = s.core.sectorData + 128 * (s.heap p).table.index.toNat
  crc : ∀ p ∈ s.core.infoList, (s.heap p).table.checksum = (s.heap p).table.crc
  num : s.core.infoNum = s.core.infoList.length
  room : s.core.infoList.length ≤ maxSwapBlockForUse

theorem View.Inv.listOk (h : s.view.Inv) : s.ListOk s.view.geom.reserve := by
  refine ⟨?_, ?_, ?_, ?_, ?_, ?_, ?_, h.num, h.room⟩
  · exact List.Nodup.map_on (fun p hp q hq hpq => h.src p hp q hq hpq) h.nodup
  · intro p hp; exact Nat.dvd_of_mod_eq_zero (h.info p hp).aligned
  · intro p hp; exact (h.info p hp).src
  · intro p hp; exact (h.info p hp).size
  · intro p hp; exact (h.info p hp).index
  · intro p hp; exact (h.info p hp).swap
  · intro p hp; exact (h.info p hp).crc.trans (crc_congr rfl)

/-- **The mapping list stays well formed.** In every state reached from a start on an all-zero
reserve by requests below it, whatever the device and the allocator do, the list is in order,
and the next request only adds entries at its end. -/
theorem mapping_list_well_formed {E₀ : Env} {R : ℕ} {s₀ s₁ : World} (hR : R + maxReservedSector < 2 ^ 31)
    (hE : E₀.NoForgedEntry) (hz : ZeroReserve R s₀.disk)
    (hinit : (scsiSwapInit E₀ R).run s₀ = some (true, s₁))
    (h : Reach (Request.serve E) (fun _ o => o.start + o.count ≤ R) s₁ s) :
    s.ListOk R ∧ ∀ (o : Request) (a : Reply) (s' : World), (o.serve E).run s = some (a, s') →
      s.core.infoList <+: s'.core.infoList ∧
        ∀ p ∈ s.core.infoList, (s'.heap p).table.srcSec = (s.heap p).table.srcSec := by
  obtain ⟨hv₁, hres₁, -⟩ := scsiSwapInit_zero hE (by omega) hz hinit
  have hinv : s.view.Inv ∧ s.view.geom.reserve = R := by
    refine h.inv (I := fun t : World => t.view.Inv ∧ t.view.geom.reserve = R) ⟨hv₁, hres₁⟩ ?_
    intro t o a t' ht ho hs
    have hserved := serve_served hs ht.1 (ht.2 ▸ fits_of_small ho hR)
    exact ⟨hserved.inv, by rw [hserved.geom]; exact ht.2⟩
  obtain ⟨hv, hres⟩ := hinv
  refine ⟨hres ▸ hv.listOk, fun o a s' hs => ?_⟩
  have hg := serve_grows hs
  exact ⟨hg.list, fun p hp => hg.src p (hv.old p hp)⟩

/-- A disk that can write none of its 1000 sectors, and no twos to its first spare block: two
writes end in two mappings, a third one moves the first of them. -/
theorem mapping_list_well_formed_moved :
    let E := Env.refusing fun c b => c.lba < 1000 || (c.lba = 50152 && b 0 0 = 2)
    let os : List Request := [⟨true, 5, 3, 2 ^ 64 - 1, fun _ _ => 1⟩, ⟨true, 300, 1, 2 ^ 64 - 1, fun _ _ => 9⟩,
      ⟨true, 0, 128, 2 ^ 64 - 1, fun _ _ => 2⟩]
    ∃ s₁ s as, (scsiSwapInit E 1000).run World.blank = some (true, s₁) ∧
      (session E os).run s₁ = some (as, s) ∧
      s.core.infoList.map (fun p => (s.heap p).table.index) = [2, 1] ∧ s.ListOk 1000 := by
  intro E os
  have hrun : ((do
      let ok ← scsiSwapInit E 1000
      let _ ← session E os
      let s ← get
      return (ok, s.core.infoList.map fun p => (s.heap p).table.index) : SwapM (Bool × List (BitVec 32))).run
      World.blank).map Prod.fst = some (true, [2, 1]) := by decide +kernel
  obtain ⟨s', h⟩ := run_of_result hrun
  obtain ⟨ok, s₁, h1, h2⟩ := run_bind_iff.1 h
  obtain ⟨as, s₂, h3, h4⟩ := run_bind_iff.1 h2
  rw [run_get_bind] at h4
  obtain ⟨e, rfl⟩ := run_pure_iff.1 h4
  obtain ⟨rfl, hidx⟩ := Prod.mk.inj e
  refine ⟨s₁, s', as, h1, h3, hidx.symm, ?_⟩
  have hreach := (Reach.start (P := fun _ o => o.start + o.count ≤ 1000)).runAll (by
    intro o ho _
    revert o
    simp [os]) h3
  exact (mapping_list_well_formed (by decide) (refusing_noForgedEntry _) (fun _ _ => rfl) h1 hreach).1

end ScsiSwap
