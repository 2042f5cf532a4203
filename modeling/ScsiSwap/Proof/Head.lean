import ScsiSwap.Proof.Table

/-!
# Finding the head again

`init_swap_head` looks at the first sector of each candidate block and at the one 64 sectors
behind it. What it does with a block follows from the two alone (`Skipped`, `found`), so a whole
search is settled by the first block that is not passed over (`headLoop_search`, `headLoop_found`,
`headLoop_create`).

* `Rooted`: a state whose head is where a search would take it from, if it comes that far;
* `Rooted.recovers_iff`: it does so just if every earlier block is passed over;
* `initSwapHead_rooted`: which earlier blocks a successful `init_swap_head` leaves in the way.

The two main results are about what comes after. `head_recovered_iff`: with a fixed set of bad
sectors, when the next start finds the same head. `newest_head_wins_iff`: with single failed
writes, when it finds the last one written.
-/

namespace ScsiSwap

open StateOption ByteCodec

variable {E : Env} {s s' : World} {H : ℕ} {bad : ℕ → Bool} {disk disk' : ℕ → Sector}

/-! ## Sectors that fail for good -/

/-- From `H` on, the sectors at the offsets `bad` can be neither read nor written; all others can.
What a failed write leaves behind is of no account, as it cannot be read. -/
structure Env.BadSectors (E : Env) (H : ℕ) (bad : ℕ → Bool) : Prop where
  read : E.ReadFaults H bad
  writeOk : ∀ t k buf, k < maxReservedSector → bad k = false → E.write t ⟨(H + k) % 2 ^ 32, 1, 5⟩ buf = .ok
  writeFail : ∀ t k buf, k < maxReservedSector → bad k = true →
    (E.write t ⟨(H + k) % 2 ^ 32, 1, 5⟩ buf).isOk = false

/-- Writing one sector changes no other one. -/
theorem writeOne_run (E : Env) (w : Writer) (sector : ℕ) (b : Sector) (s : World) :
    ∃ ok s', (hdWriteSectorRetry E w sector 1 fun _ => b).run s = some (ok, s') ∧ Calm s s' ∧
      ∀ y ≠ sector % 2 ^ 32, s'.disk y = s.disk y := by
  obtain ⟨ok, s', h⟩ : ∃ ok s', (hdWriteSectorRetry E w sector 1 fun _ => b).run s = some (ok, s') :=
    ⟨_, _, hdWriteSector_run ..⟩
  refine ⟨ok, s', h, hdWriteSector_calm h, fun y hy => ?_⟩
  rw [(hdWriteSector_one h).2, Function.update_of_ne hy]

theorem Env.BadSectors.write (hE : E.BadSectors H bad) {w : Writer} {k : ℕ} (hk : k < maxReservedSector)
    {b : Sector} {ok : Bool} (h : (hdWriteSectorRetry E w (H + k) 1 fun _ => b).run s = some (ok, s')) :
    ok = (!bad k) ∧ (bad k = false → s'.disk ((H + k) % 2 ^ 32) = b) := by
  obtain ⟨hok, hd⟩ := hdWriteSector_one h
  cases hb : bad k with
  | true =>
    rw [hE.writeFail _ _ _ hk hb] at hok
    exact ⟨hok, fun h => absurd h (by simp)⟩
  | false =>
    rw [hE.writeOk _ _ _ hk hb] at hok hd
    exact ⟨hok, fun _ => by rw [hd, Function.update_self]⟩

/-! ## What a search makes of a block -/

/-- The head in the sector at offset `k` from `H`. -/
def headAt (disk : ℕ → Sector) (H k : ℕ) : SwapHead := swapHeadEquiv.symm (disk ((H + k) % 2 ^ 32))

/-- Its state as `swap_get_head_state` reports it. -/
def headStateAt (bad : ℕ → Bool) (disk : ℕ → Sector) (H k : ℕ) : HeadState :=
  if bad k then .fail else (headAt disk H k).state

/-- The search goes on past block `i`. -/
def Skipped (bad : ℕ → Bool) (disk : ℕ → Sector) (H i : ℕ) : Prop :=
  headStateAt bad disk H (128 * i) = .invalid ∨
    headStateAt bad disk H (128 * i) = .fail ∧ headStateAt bad disk H (128 * i + 64) = .fail

instance (i : ℕ) : Decidable (Skipped bad disk H i) := inferInstanceAs (Decidable (_ ∨ _))

/-- The head it takes from a block it does not go past. -/
def found (bad : ℕ → Bool) (disk : ℕ → Sector) (H i : ℕ) : Option SwapHead :=
  if headStateAt bad disk H (128 * i) = .ok then some (headAt disk H (128 * i))
  else if headStateAt bad disk H (128 * i + 64) = .ok then some (headAt disk H (128 * i + 64))
  else none

theorem headAt_of_eq {k : ℕ} {h : SwapHead} (hd : disk ((H + k) % 2 ^ 32) = swapHeadEquiv h) :
    headAt disk H k = h := by
  unfold headAt
  rw [hd, Equiv.symm_apply_apply]

theorem headStateAt_bad {k : ℕ} (h : bad k = true) : headStateAt bad disk H k = .fail := by
  unfold headStateAt
  rw [if_pos h]

theorem headStateAt_good {k : ℕ} (h : bad k = false) : headStateAt bad disk H k = (headAt disk H k).state := by
  unfold headStateAt
  rw [h]
  rfl

theorem headStateAt_fail {k : ℕ} : headStateAt bad disk H k = .fail ↔ bad k = true := by
  cases hb : bad k with
  | true => simp [headStateAt_bad hb]
  | false => simp [headStateAt_good hb, SwapHead.state_ne_fail]

/-- The two sectors that matter are the same. -/
def SameHeads (H i : ℕ) (disk disk' : ℕ → Sector) : Prop :=
  disk' ((H + 128 * i) % 2 ^ 32) = disk ((H + 128 * i) % 2 ^ 32) ∧
    disk' ((H + (128 * i + 64)) % 2 ^ 32) = disk ((H + (128 * i + 64)) % 2 ^ 32)

theorem SameHeads.trans {i : ℕ} {d₁ d₂ d₃ : ℕ → Sector} (h : SameHeads H i d₁ d₂) (h' : SameHeads H i d₂ d₃) :
    SameHeads H i d₁ d₃ := ⟨h'.1.trans h.1, h'.2.trans h.2⟩

theorem SameHeads.skipped {i : ℕ} (h : SameHeads H i disk disk') :
    Skipped bad disk' H i ↔ Skipped bad disk H i := by
  unfold Skipped headStateAt headAt
  rw [h.1, h.2]

/-- A round of `init_swap_head` after its two reads, with something else in place of
`swap_create_new_head`; `next` is the rest of the loop. -/
def headDecide (create next : SwapM Bool) (E : Env) (secStart : ℕ) (st stBack : HeadState)
    (head headBack : SwapHead) : SwapM Bool := do
  if st = .fail ∧ stBack = .fail then next
  else if st = .ok then
    repairBackup E secStart head stBack
    modify fun s => { s with core.sectorHead := secStart }
    return true
  else if stBack = .ok then
    modify fun s => s.setHead headBack
    let _ ← hdWriteSectorRetry E .head secStart 1 (fun _ => swapHeadEquiv headBack)
    modify fun s => { s with core.sectorHead := secStart }
    return true
  else if ← create then return true
  else
    deviceDeadInc
    return false

/-- The loop of `init_swap_head`, with something else in place of `swap_create_new_head`. -/
def initHeadLoopWith (create : SwapM Bool) (E : Env) : ℕ → ℕ → SwapM Bool
  | 0, _ => do
    deviceDeadInc
    return false
  | n + 1, secStart => do
    let s ← get
    let (st, head) ← swapGetHeadState E secStart s.core.head
    modify fun s => s.setHead head
    if st = .invalid then initHeadLoopWith create E n (secStart + 128)
    else
      let (stBack, headBack) ← swapGetHeadState E (secStart + swapHeadBackupOffest) SwapHead.zero
      headDecide create (initHeadLoopWith create E n (secStart + 128)) E secStart st stBack head headBack

theorem initHeadLoop_eq : ∀ n secStart, initHeadLoop E n secStart =
    initHeadLoopWith (swapCreateNewHead E) E n secStart := by
  intro n
  induction n with
  | zero => intro secStart; rfl
  | succ n ih =>
    intro secStart
    unfold initHeadLoop initHeadLoopWith headDecide
    simp only [ih]

/-- The disk and the place of the head are as before. -/
structure Still (s s' : World) : Prop where
  disk : s'.disk = s.disk
  sector : s'.core.sectorHead = s.core.sectorHead

theorem Still.trans {s₁ s₂ s₃ : World} (h : Still s₁ s₂) (h' : Still s₂ s₃) : Still s₁ s₃ :=
  ⟨h'.disk.trans h.disk, h'.sector.trans h.sector⟩

theorem Calm.still (h : Calm s s') (hd : s'.disk = s.disk) : Still s s' := ⟨hd, by rw [h.core]⟩

section search

variable {i n : ℕ}

theorem swapGetHeadState_run (hE : E.ReadFaults H bad) {k : ℕ} (hk : k < maxReservedSector)
    (old : SwapHead) (s : World) :
    ∃ h s', (swapGetHeadState E (H + k) old).run s = some ((headStateAt bad s.disk H k, h), s') ∧ Still s s' ∧
      s'.core.head = s.core.head ∧ (bad k = false → h = headAt s.disk H k) := by
  obtain ⟨buf, s₁, h1, hc, hd, hbuf⟩ := readFaults_run (s := s) hE hk
  unfold swapGetHeadState
  rw [run_bind_of h1]
  refine ⟨swapHeadEquiv.symm ((buf 0).getD (swapHeadEquiv old)), s₁, ?_,
    hc.still hd, by rw [hc.core], fun hb => ?_⟩
  · cases hb : bad k with
    | true => rw [headStateAt_bad hb]; rfl
    | false =>
      rw [headStateAt_good hb]
      dsimp only
      rw [hbuf hb]
      rfl
  · rw [hbuf hb]
    rfl

variable (hE : E.ReadFaults H bad) (hi : 128 * i + 128 ≤ maxReservedSector)
include hE hi

/-- The two reads of a round. -/
theorem headLoop_reads (hinv : headStateAt bad s.disk H (128 * i) ≠ .invalid) :
    ∃ h b s₁, Still s s₁ ∧ s₁.core.head = h ∧ (bad (128 * i) = false → h = headAt s.disk H (128 * i)) ∧
      (bad (128 * i + 64) = false → b = headAt s.disk H (128 * i + 64)) ∧
      ∀ c, (initHeadLoopWith c E (n + 1) (H + 128 * i)).run s =
        (headDecide c (initHeadLoopWith c E n (H + 128 * (i + 1))) E (H + 128 * i)
          (headStateAt bad s.disk H (128 * i)) (headStateAt bad s.disk H (128 * i + 64)) h b).run s₁ := by
  obtain ⟨h, s₁, h1, hs1, -, hh⟩ :=
    swapGetHeadState_run hE (show 128 * i < maxReservedSector by omega) s.core.head s
  obtain ⟨b, s₂, h2, hs2, hhead, hb⟩ :=
    swapGetHeadState_run hE (show 128 * i + 64 < maxReservedSector by omega) SwapHead.zero
    (s₁.setHead h)
  have hd : (s₁.setHead h).disk = s.disk := hs1.disk
  rw [hd] at h2 hb
  refine ⟨h, b, s₂, ⟨hs2.disk.trans hs1.disk, hs2.sector.trans hs1.sector⟩, hhead, hh, hb, fun c => ?_⟩
  conv_lhs => unfold initHeadLoopWith
  rw [run_get_bind, run_bind_of h1]
  dsimp only
  rw [run_modify_bind, if_neg hinv, Nat.add_assoc H, run_bind_of h2, Nat.add_assoc H]
  rfl

/-- Past a block. -/
theorem headLoop_skip (h : Skipped bad s.disk H i) :
    ∃ s₁, Still s s₁ ∧ ∀ c, (initHeadLoopWith c E (n + 1) (H + 128 * i)).run s =
      (initHeadLoopWith c E n (H + 128 * (i + 1))).run s₁ := by
  by_cases hinv : headStateAt bad s.disk H (128 * i) = .invalid
  · obtain ⟨h, s₁, h1, hs1, -⟩ := swapGetHeadState_run hE
      (show 128 * i < maxReservedSector by omega) s.core.head s
    refine ⟨s₁.setHead h, ⟨hs1.disk, hs1.sector⟩, fun c => ?_⟩
    conv_lhs => unfold initHeadLoopWith
    rw [run_get_bind, run_bind_of h1]
    dsimp only
    rw [run_modify_bind, if_pos hinv]
    rfl
  · obtain ⟨x, b, s₁, hs, -, -, -, hrun⟩ := headLoop_reads (n := n) hE hi hinv
    refine ⟨s₁, hs, fun c => (hrun c).trans ?_⟩
    unfold headDecide
    rw [if_pos (h.resolve_left hinv)]

/-- No head in the block: a new one is made. -/
theorem headLoop_create (h : ¬ Skipped bad s.disk H i) (hf : found bad s.disk H i = none) :
    ∃ s₁, Still s s₁ ∧ ∀ c, (initHeadLoopWith c E (n + 1) (H + 128 * i)).run s =
      (do if ← c then return true
          else
            deviceDeadInc
            return false : SwapM Bool).run s₁ := by
  obtain ⟨hinv, hfail⟩ := not_or.1 h
  obtain ⟨hok, hok'⟩ : headStateAt bad s.disk H (128 * i) ≠ .ok ∧
    headStateAt bad s.disk H (128 * i + 64) ≠ .ok := by
    unfold found at hf
    constructor
    · intro he; rw [if_pos he] at hf; exact absurd hf (by simp)
    · intro he; rw [if_pos he] at hf; split at hf <;> exact absurd hf (by simp)
  obtain ⟨x, b, s₁, hs, -, -, -, hrun⟩ := headLoop_reads (n := n) hE hi hinv
  refine ⟨s₁, hs, fun c => (hrun c).trans ?_⟩
  unfold headDecide
  rw [if_neg hfail, if_neg hok, if_neg hok']

/-- A head in the block: it is taken, and the other copy is repaired. -/
theorem headLoop_found (h : ¬ Skipped bad s.disk H i) {x : SwapHead} (hf : found bad s.disk H i = some x) :
    ∃ s₁, (∀ c, (initHeadLoopWith c E (n + 1) (H + 128 * i)).run s = some (true, s₁)) ∧
      s₁.core.sectorHead = H + 128 * i ∧ s₁.core.head = x ∧
      (headStateAt bad s.disk H (128 * i) = .ok →
        ∀ y ≠ (H + (128 * i + 64)) % 2 ^ 32, s₁.disk y = s.disk y) ∧
      (headStateAt bad s.disk H (128 * i) ≠ .ok →
        (∀ y ≠ (H + 128 * i) % 2 ^ 32, s₁.disk y = s.disk y) ∧
        (E.BadSectors H bad → bad (128 * i) = false → s₁.disk ((H + 128 * i) % 2 ^ 32) = swapHeadEquiv x)) := by
  obtain ⟨hinv, hfail⟩ := not_or.1 h
  obtain ⟨m, b, s₁, hs, hhead, hm, hb, hrun⟩ := headLoop_reads (n := n) hE hi hinv
  unfold headDecide at hrun
  unfold found at hf
  by_cases hok : headStateAt bad s.disk H (128 * i) = .ok
  · -- from the master
    rw [if_pos hok] at hf
    have hgood : bad (128 * i) = false := by
      by_contra hne
      rw [headStateAt_bad (by simpa using hne)] at hok
      exact absurd hok (by simp)
    obtain rfl : x = m := (Option.some.inj hf).symm.trans (hm hgood).symm
    obtain ⟨s₂, h2, hc, hd⟩ :
      ∃ s₂, (repairBackup E (H + 128 * i) x (headStateAt bad s.disk H (128 * i + 64))).run s₁ =
        some ((), s₂) ∧ Calm s₁ s₂ ∧ ∀ y ≠ (H + (128 * i + 64)) % 2 ^ 32, s₂.disk y = s₁.disk y := by
      unfold repairBackup
      split
      · obtain ⟨ok, s₂, h2, hc, hd⟩ :=
          writeOne_run E .head (H + 128 * i + swapHeadBackupOffest) (swapHeadEquiv x) s₁
        exact ⟨s₂, by rw [run_bind_of h2]; rfl, hc, by rwa [Nat.add_assoc H] at hd⟩
      · exact ⟨s₁, rfl, Calm.refl _, fun _ _ => rfl⟩
    refine ⟨_,
      fun c => by
      rw [hrun, if_neg hfail, if_pos hok, run_bind_of h2, run_modify_bind]; rfl,
      rfl, ?_, fun _ y hy => ?_, fun hne => absurd hok hne⟩
    · show s₂.core.head = x
      rw [hc.core]
      exact hhead
    · exact (hd y hy).trans (congrFun hs.disk y)
  · -- from the backup
    rw [if_neg hok] at hf
    have hok' : headStateAt bad s.disk H (128 * i + 64) = .ok := by
      by_contra hne
      rw [if_neg hne] at hf
      exact absurd hf (by simp)
    rw [if_pos hok'] at hf
    have hgood : bad (128 * i + 64) = false := by
      by_contra hne
      rw [headStateAt_bad (by simpa using hne)] at hok'
      exact absurd hok' (by simp)
    obtain rfl : x = b := (Option.some.inj hf).symm.trans (hb hgood).symm
    obtain ⟨ok, s₂, h2, hc, hd⟩ := writeOne_run E .head (H + 128 * i) (swapHeadEquiv x) (s₁.setHead x)
    refine ⟨_, fun c => by
      rw [hrun, if_neg hfail, if_neg hok, if_pos hok', run_modify_bind, run_bind_of h2, run_modify_bind]; rfl,
      rfl, ?_, fun he => absurd he hok, fun _ => ⟨fun y hy => ?_, fun hE hg => ?_⟩⟩
    · show s₂.core.head = x
      rw [hc.core]
      rfl
    · exact (hd y hy).trans (congrFun hs.disk y)
    · exact (hE.write (by omega) h2).2 hg

omit hi in
/-- A search goes past blocks until one is not skipped. -/
theorem headLoop_search : ∀ (m i : ℕ) (s : World), 128 * (i + m) ≤ maxReservedSector →
    (∀ j, i ≤ j → j < i + m → Skipped bad s.disk H j) →
    ∃ s₁, Still s s₁ ∧ ∀ c, (initHeadLoopWith c E (m + n) (H + 128 * i)).run s =
      (initHeadLoopWith c E n (H + 128 * (i + m))).run s₁ := by
  intro m
  induction m with
  | zero =>
    intro i s _ _
    rw [Nat.zero_add]
    exact ⟨s, ⟨rfl, rfl⟩, fun _ => rfl⟩
  | succ m ih =>
    intro i s hm hskip
    obtain ⟨s₁, hs1, h1⟩ := headLoop_skip (n := m + n) hE (show 128 * i + 128 ≤ _ by omega)
      (hskip i le_rfl (by omega))
    obtain ⟨s₂, hs2, h2⟩ := ih (i + 1) s₁ (by omega) fun j h1 h2 => by
      rw [hs1.disk]
      exact hskip j (by omega) (by omega)
    refine ⟨s₂, hs1.trans hs2, fun c => ?_⟩
    rw [show m + 1 + n = m + n + 1 by omega, h1, h2, show i + 1 + m = i + (m + 1) by omega]

omit hi in
theorem headLoop_enter (hlt : i < maxSwapHeadBlockNum) (hskip : ∀ k < i, Skipped bad s.disk H k) :
    ∃ s₁, Still s s₁ ∧ ∀ c, (initHeadLoopWith c E maxSwapHeadBlockNum H).run s =
      (initHeadLoopWith c E (1023 - i + 1) (H + 128 * i)).run s₁ := by
  simp only [maxSwapHeadBlockNum] at hlt
  have hmax : 128 * 1024 ≤ maxReservedSector := by decide
  obtain ⟨s₁, hs, h⟩ := headLoop_search (n := 1023 - i + 1) hE i 0 s (by omega) fun k _ hk => hskip k (by omega)
  rw [show i + (1023 - i + 1) = maxSwapHeadBlockNum by simp only [maxSwapHeadBlockNum]; omega, Nat.zero_add] at h
  exact ⟨s₁, hs, h⟩

end search

theorem block_bound {i : ℕ} (h : i < maxSwapHeadBlockNum) : 128 * i + 128 ≤ maxReservedSector := by
  simp only [maxSwapHeadBlockNum] at h
  have hmax : 128 * 1024 ≤ maxReservedSector := by decide
  omega

theorem exists_first_not {P : ℕ → Prop} {n : ℕ} (h : ¬ ∀ i < n, P i) : ∃ i < n, ¬ P i ∧ ∀ k < i, P k := by
  classical
  obtain ⟨m, hm⟩ := not_forall.1 h
  obtain ⟨hmn, hmP⟩ := Classical.not_imp.1 hm
  have hex : ∃ i, ¬ P i := ⟨m, hmP⟩
  exact ⟨Nat.find hex, lt_of_le_of_lt (Nat.find_min' hex hmP) hmn, Nat.find_spec hex,
    fun k hk => not_not.1 (Nat.find_min hex hk)⟩

/-! ## Where the head is -/

/-- The head in memory is the one a search takes from block `j`, if it comes that far: the master
copy, or the backup copy of a master that cannot be read. -/
structure Rooted (bad : ℕ → Bool) (H : ℕ) (s : World) (j : ℕ) : Prop where
  lt : j < maxSwapHeadBlockNum
  sector : s.core.sectorHead = H + 128 * j
  named : s.core.head.Named
  copy : ∃ k, (k = 128 * j ∨ bad (128 * j) = true ∧ k = 128 * j + 64) ∧ bad k = false ∧
    (headAt s.disk H k).state = .ok ∧ (headAt s.disk H k).bitmap = s.core.head.bitmap

theorem Rooted.found {j : ℕ} (h : Rooted bad H s j) :
    ¬ Skipped bad s.disk H j ∧ ∃ x, found bad s.disk H j = some x ∧ x.bitmap = s.core.head.bitmap := by
  obtain ⟨k, hk, hgood, hok, hbm⟩ := h.copy
  rw [← headStateAt_good hgood] at hok
  rcases hk with rfl | ⟨hbad, rfl⟩
  · refine ⟨?_, _, if_pos hok, hbm⟩
    rintro (hs | ⟨hs, -⟩) <;> exact absurd (hok.symm.trans hs) (by simp)
  · have hfail : headStateAt bad s.disk H (128 * j) = .fail := headStateAt_bad hbad
    refine ⟨?_, headAt s.disk H (128 * j + 64), ?_, hbm⟩
    · rintro (hs | ⟨-, hs⟩)
      · exact absurd (hfail.symm.trans hs) (by simp)
      · exact absurd (hok.symm.trans hs) (by simp)
    · unfold ScsiSwap.found
      rw [if_neg (by rw [hfail]; simp), if_pos hok]

/-- A start on the disk of `s` finds the head of `s`, whatever the creation of a head would do. -/
def Recovers (E : Env) (H : ℕ) (s t : World) : Prop :=
  ∃ t', (∀ create, (initHeadLoopWith create E maxSwapHeadBlockNum H).run t = some (true, t')) ∧
    t'.core.sectorHead = s.core.sectorHead ∧ t'.core.head.bitmap = s.core.head.bitmap

theorem Rooted.recovers_iff (hE : E.ReadFaults H bad) {t : World} {j : ℕ} (h : Rooted bad H s j)
    (ht : t.disk = s.disk) : Recovers E H s t ↔ ∀ i < j, Skipped bad s.disk H i := by
  constructor
  · -- the first block in the way would be taken for the head, or make the search create one
    rintro ⟨t', hrun, hsec, -⟩
    by_contra hcon
    obtain ⟨i, hij, hno, hfirst⟩ := exists_first_not hcon
    have hi : i < maxSwapHeadBlockNum := lt_trans hij h.lt
    rw [← ht] at hno hfirst
    obtain ⟨t₁, hs1, h1⟩ := headLoop_enter hE hi hfirst
    rw [← hs1.disk] at hno
    cases hf : ScsiSwap.found bad t₁.disk H i with
    | some x =>
      obtain ⟨t₂, h2, hsec2, -⟩ := headLoop_found (n := 1023 - i) hE (block_bound hi) hno hf
      obtain ⟨-, rfl⟩ := run_det ((h1 oops).trans (h2 oops)) (hrun oops)
      rw [hsec2, h.sector] at hsec
      omega
    | none =>
      obtain ⟨t₂, -, h2⟩ := headLoop_create (n := 1023 - i) hE (block_bound hi) hno hf
      obtain ⟨a, t₃, h3, -⟩ := run_bind_iff.1 (((h1 oops).trans (h2 oops)).symm.trans (hrun oops))
      exact run_oops h3
  · intro hskip
    obtain ⟨hns, x, hx, hbm⟩ := h.found
    rw [← ht] at hskip
    obtain ⟨t₁, hs1, h1⟩ := headLoop_enter hE h.lt hskip
    rw [← ht, ← hs1.disk] at hns hx
    obtain ⟨t₂, h2, hsec, hhead, -⟩ := headLoop_found (n := 1023 - j) hE (block_bound h.lt) hns hx
    exact ⟨t₂, fun c => (h1 c).trans (h2 c), hsec.trans h.sector.symm, by rw [hhead, hbm]⟩

/-! ## Writing the head -/

theorem flushSwapHead_run (E : Env) (s : World) :
    ∃ s₁ s' ok ok', (hdWriteSectorRetry E .head s.core.sectorHead 1 fun _ => swapHeadEquiv s.core.head.seal).run
        (s.setHead s.core.head.seal) = some (ok, s₁) ∧
      (hdWriteSectorRetry E .head (s.core.sectorHead + 64) 1 fun _ => swapHeadEquiv s.core.head.seal).run s₁ =
        some (ok', s') ∧
      (flushSwapHead E).run s = some (ok', s') ∧ s'.core.sectorHead = s.core.sectorHead ∧
      s'.core.head = s.core.head.seal := by
  obtain ⟨ok, s₁, h1, hc1, -⟩ := writeOne_run E .head s.core.sectorHead (swapHeadEquiv s.core.head.seal)
    (s.setHead s.core.head.seal)
  obtain ⟨ok', s', h2, hc2, -⟩ := writeOne_run E .head (s.core.sectorHead + 64)
    (swapHeadEquiv s.core.head.seal) s₁
  have hc := (hc1.trans hc2).core
  refine ⟨s₁, s', ok, ok', h1, h2, ?_, by rw [hc]; rfl, by rw [hc]; rfl⟩
  unfold flushSwapHead
  rw [run_get_bind, run_set_bind]
  exact (run_bind_of h1).trans h2

section bad

variable (hE : E.BadSectors H bad)
include hE

theorem flushSwapHead_bad {k : ℕ} (hk : k + 64 < maxReservedSector) (hs : s.core.sectorHead = H + k) :
    ∃ s', (flushSwapHead E).run s = some (!bad (k + 64), s') ∧ s'.core.sectorHead = H + k ∧
      s'.core.head = s.core.head.seal ∧
      (∀ i, (i : ℕ) < maxReservedSector → i ≠ k → i ≠ k + 64 →
        s'.disk ((H + i) % 2 ^ 32) = s.disk ((H + i) % 2 ^ 32)) ∧
      (bad k = false → s'.disk ((H + k) % 2 ^ 32) = swapHeadEquiv s.core.head.seal) ∧
      (bad (k + 64) = false → s'.disk ((H + (k + 64)) % 2 ^ 32) = swapHeadEquiv s.core.head.seal) := by
  obtain ⟨s₁, s', ok, ok', h1, h2, hrun, hsec, hhead⟩ := flushSwapHead_run E s
  rw [hs] at h1 h2 hsec
  rw [Nat.add_assoc] at h2
  obtain ⟨-, hd1⟩ := hE.write (show k < _ by omega) h1
  obtain ⟨rfl, hd2⟩ := hE.write hk h2
  have hf1 := (hdWriteSector_one h1).2
  have hf2 := (hdWriteSector_one h2).2
  refine ⟨s', hrun, hsec, hhead, fun i hi h1 h2 => ?_, fun hb => ?_, hd2⟩
  · rw [hf2, Function.update_of_ne fun he => h2 (addr_inj hi hk he), hf1,
      Function.update_of_ne fun he => h1 (addr_inj hi (by omega) he)]
    rfl
  · rw [hf2, Function.update_of_ne fun he => absurd (addr_inj (by omega) hk he) (by omega)]
    exact hd1 hb

/-- A flush that returns 0 keeps the head where it is, with its new bitmap. -/
theorem Rooted.flush {j : ℕ} {b : BitVec 1024} (h : Rooted bad H s j)
    (hf : (flushSwapHead E).run (s.setBitmap b) = some (true, s')) :
    Rooted bad H s' j ∧ s'.core.head.bitmap = b ∧
      ∀ i < maxSwapHeadBlockNum, i ≠ j → SameHeads H i s.disk s'.disk := by
  have hlt := h.lt
  simp only [maxSwapHeadBlockNum] at hlt
  have hmax : 128 * 1024 ≤ maxReservedSector := by decide
  obtain ⟨t, hrun, hsec, hhead, hframe, hm, hb⟩ :=
    flushSwapHead_bad hE (s := s.setBitmap b) (k := 128 * j) (by omega) h.sector
  obtain ⟨hok, rfl⟩ := run_det hrun hf
  have hgood : bad (128 * j + 64) = false := by simpa using hok.symm
  have hn : (s.setBitmap b).core.head.Named := ⟨h.named.head, h.named.status⟩
  have hnt : s'.core.head.Named := by rw [hhead]; exact ⟨hn.head, hn.status⟩
  refine ⟨⟨h.lt, hsec, hnt, ?_⟩, by rw [hhead]; rfl, fun i hi hij => ?_⟩
  · cases hbad : bad (128 * j) with
    | false =>
      refine ⟨128 * j, Or.inl rfl, hbad, ?_, ?_⟩ <;> rw [headAt_of_eq (hm hbad)]
      · exact hn.seal_ok
      · rw [hhead]
    | true =>
      refine ⟨128 * j + 64, Or.inr ⟨rfl, rfl⟩, hgood, ?_, ?_⟩ <;> rw [headAt_of_eq (hb hgood)]
      · exact hn.seal_ok
      · rw [hhead]
  · simp only [maxSwapHeadBlockNum] at hi
    exact ⟨hframe _ (by omega) (by omega) (by omega), hframe _ (by omega) (by omega) (by omega)⟩

end bad

/-- Bitmaps made permanent one after another, up to the first that `flush_swap_head` fails for. -/
def persist (E : Env) : List (BitVec 1024) → SwapM Bool
  | [] => return true
  | b :: bs => do
    modify fun s => s.setBitmap b
    if ← flushSwapHead E then persist E bs else return false

theorem Rooted.persist (hE : E.BadSectors H bad) {j : ℕ} :
    ∀ (bs : List (BitVec 1024)) {s s' : World}, Rooted bad H s j →
    (persist E bs).run s = some (true, s') →
    Rooted bad H s' j ∧ ∀ i < maxSwapHeadBlockNum, i ≠ j → SameHeads H i s.disk s'.disk := by
  intro bs
  induction bs with
  | nil =>
    intro s s' h hrun
    obtain ⟨-, rfl⟩ := run_pure_iff.1 hrun
    exact ⟨h, fun _ _ _ => ⟨rfl, rfl⟩⟩
  | cons b bs ih =>
    intro s s' h hrun
    unfold ScsiSwap.persist at hrun
    rw [run_modify_bind] at hrun
    obtain ⟨ok, s₁, h1, h2⟩ := run_bind_iff.1 hrun
    cases ok with
    | false =>
      rw [if_neg (by simp)] at h2
      exact absurd (run_pure_iff.1 h2).1 (by simp)
    | true =>
      rw [if_pos rfl] at h2
      obtain ⟨hr1, -, hsame1⟩ := h.flush hE h1
      obtain ⟨hr2, hsame2⟩ := ih hr1 h2
      exact ⟨hr2, fun i hi hij => (hsame1 i hi hij).trans (hsame2 i hi hij)⟩

/-! ## Making a new head -/

section create

variable (hE : E.BadSectors H bad)
include hE

/-- The write test of a block finds its first bad sector. -/
theorem swapCheckBlockBySector_bad {j : ℕ} : ∀ (n i : ℕ) (s : World), 128 * j + i + n ≤ maxReservedSector →
    ∃ o s', (swapCheckBlockBySector E (H + 128 * j) n i).run s = some (o, s') ∧ Calm s s' ∧
      (∀ k < maxReservedSector, k < 128 * j + i ∨ 128 * j + i + n ≤ k →
        s'.disk ((H + k) % 2 ^ 32) = s.disk ((H + k) % 2 ^ 32)) ∧
      (o = none → ∀ k, i ≤ k → k < i + n → bad (128 * j + k) = false) ∧
      ∀ f, o = some f → i ≤ f ∧ f < i + n ∧ bad (128 * j + f) = true ∧ ∀ k, i ≤ k → k < f →
      bad (128 * j + k) = false := by
  intro n
  induction n with
  | zero =>
    intro i s _
    exact ⟨none, s, rfl, Calm.refl s, fun _ _ _ => rfl,
      fun _ k h1 h2 => by omega, fun f hf => absurd hf (by simp)⟩
  | succ n ih =>
    intro i s hn
    obtain ⟨ok, s₁, h1, hc1, hd1⟩ := writeOne_run E .head (H + 128 * j + i) zeroSector s
    rw [Nat.add_assoc H] at h1 hd1
    have hframe : ∀ k < maxReservedSector, k ≠ 128 * j + i →
        s₁.disk ((H + k) % 2 ^ 32) = s.disk ((H + k) % 2 ^ 32) :=
      fun k hk hne => hd1 _ fun he => hne (addr_inj hk (by omega) he)
    obtain ⟨rfl, -⟩ := hE.write (by omega) h1
    unfold swapCheckBlockBySector
    rw [Nat.add_assoc H, run_bind_of h1]
    cases hb : bad (128 * j + i) with
    | true =>
      rw [if_neg (by simp)]
      refine ⟨some i, s₁, rfl, hc1, fun k hk hor => hframe k hk (by omega), by simp, ?_⟩
      rintro f ⟨⟩
      exact ⟨le_rfl, by omega, hb, fun k h1 h2 => by omega⟩
    | false =>
      rw [if_pos (by simp)]
      obtain ⟨o, s', h2, hc2, hd2, hnone, hsome⟩ := ih (i + 1) s₁ (by omega)
      refine ⟨o, s', h2, hc1.trans hc2, fun k hk hor => ?_, fun ho k h1 h2 => ?_, fun f hf => ?_⟩
      · exact (hd2 k hk (by omega)).trans (hframe k hk (by omega))
      · rcases Nat.eq_or_lt_of_le h1 with rfl | hlt
        · exact hb
        · exact hnone ho k hlt (by omega)
      · obtain ⟨h1, h2, h3, h4⟩ := hsome f hf
        refine ⟨by omega, by omega, h3, fun k hk1 hk2 => ?_⟩
        rcases Nat.eq_or_lt_of_le hk1 with rfl | hlt
        · exact hb
        · exact h4 k hlt hk2

/-- A head is written, with the marks that are not its status. -/
theorem swapCreateNewHead'_bad {j : ℕ} (hj : 128 * j + 64 < maxReservedSector)
    (hs : s.core.sectorHead = H + 128 * j) :
    ∃ (s' : World) (h : SwapHead), (swapCreateNewHead' E).run s = some (!bad (128 * j + 64), s') ∧
      s'.core.sectorHead = H + 128 * j ∧
      s'.core.head = h.seal ∧ hasPrefix h.headString swapHeadString = true ∧ h.status = s.core.head.status ∧
      (∀ k < maxReservedSector, k ≠ 128 * j → k ≠ 128 * j + 64 →
        s'.disk ((H + k) % 2 ^ 32) = s.disk ((H + k) % 2 ^ 32)) ∧
      (bad (128 * j) = false → headAt s'.disk H (128 * j) = h.seal) := by
  unfold swapCreateNewHead'
  rw [run_modify_bind]
  obtain ⟨s', hrun, hsec, hhead, hframe, hm, -⟩ :=
    flushSwapHead_bad hE (k := 128 * j) (s := s.setHead { s.core.head with
    headString := strncpy s.core.head.headString swapHeadString 16
    version := strncpy s.core.head.version swapVersion 4 }) hj hs
  exact ⟨s', _, hrun, hsec, hhead, hasPrefix_strncpy _ _ (by decide), rfl, hframe, fun hb => headAt_of_eq (hm hb)⟩

/-- A block with a bad sector is marked in its first sector, if that can be written. -/
theorem markInvalid_bad {j f : ℕ} (hj : 128 * j + 64 < maxReservedSector) (hs : s.core.sectorHead = H + 128 * j) :
    ∃ s', (markInvalid E f).run s = some ((), s') ∧ s'.core.sectorHead = H + 128 * j ∧
      (∀ k < maxReservedSector, k ≠ 128 * j → k ≠ 128 * j + 64 →
        s'.disk ((H + k) % 2 ^ 32) = s.disk ((H + k) % 2 ^ 32)) ∧
      (f ≠ 0 → bad (128 * j) = false → headStateAt bad s'.disk H (128 * j) = .invalid) := by
  unfold markInvalid
  by_cases hf : f ≠ 0
  · rw [if_pos hf, run_modify_bind]
    obtain ⟨s', h, hrun, hsec, -, hname, hstatus, hframe, hm⟩ := swapCreateNewHead'_bad hE
      (s := s.setHead { s.core.head with status := strncpy s.core.head.status strInvalid 7 }) hj hs
    refine ⟨s', by rw [run_bind_of hrun]; rfl, hsec, hframe, fun _ hb => ?_⟩
    rw [headStateAt_good hb, hm hb]
    refine SwapHead.state_invalid hname ?_
    show hasPrefix h.status strInvalid = true
    rw [hstatus]
    exact hasPrefix_strncpy _ _ (by decide)
  · rw [if_neg hf]
    exact ⟨s, rfl, hs, fun _ _ _ _ => rfl, fun h => absurd h hf⟩

/-- **A new head** goes to the first block without a bad sector. Each block before it is marked,
unless its first sector is bad. -/
theorem createHeadLoop_bad : ∀ (n i : ℕ) {s s' : World}, i + n = maxSwapHeadBlockNum →
    s.core.sectorHead = H + 128 * i →
    (createHeadLoop E n).run s = some (true, s') →
    ∃ g, i ≤ g ∧ Rooted bad H s' g ∧ (∀ k < 128, bad (128 * g + k) = false) ∧
      (∀ j, i ≤ j → j < g → (∃ k < 128, bad (128 * j + k) = true) ∧
        (bad (128 * j) = false → headStateAt bad s'.disk H (128 * j) = .invalid)) ∧
      ∀ k < 128 * i, s'.disk ((H + k) % 2 ^ 32) = s.disk ((H + k) % 2 ^ 32) := by
  have hmax : 128 * 1024 ≤ maxReservedSector := by decide
  intro n
  induction n with
  | zero =>
    intro i s s' _ _ h
    exact absurd (run_pure_iff.1 h).1 (by simp)
  | succ n ih =>
    intro i s s' hn hs h
    have hi := hn
    simp only [maxSwapHeadBlockNum] at hi
    unfold createHeadLoop at h
    rw [run_get_bind, hs] at h
    obtain ⟨o, s₁, h1, hc1, hd1, hnone, hsome⟩ := swapCheckBlockBySector_bad hE (j := i) 128 0 s (by omega)
    rw [run_bind_of h1] at h
    have hs1 : s₁.core.sectorHead = H + 128 * i := by rw [hc1.core]; exact hs
    cases o with
    | none =>
      -- a block without a bad sector
      dsimp only at h
      rw [run_modify_bind] at h
      obtain ⟨s₂, x, hrun, hsec, hhead, hname, hstatus, hframe, hm⟩ := swapCreateNewHead'_bad hE
        (s := s₁.setHead { s₁.core.head with status := strncpy s₁.core.head.status strValid 5 }) (by omega) hs1
      obtain ⟨-, rfl⟩ := run_det hrun h
      have hgood : ∀ k < 128, bad (128 * i + k) = false := fun k hk => hnone rfl k (by omega) (by omega)
      have hx : x.Named := ⟨hname, by rw [hstatus]; exact hasPrefix_strncpy _ _ (by decide)⟩
      have hb0 : bad (128 * i) = false := hgood 0 (by omega)
      refine ⟨i, le_rfl,
        ⟨by simp only [maxSwapHeadBlockNum]; omega, hsec, ?_, 128 * i, Or.inl rfl, hb0, ?_, ?_⟩, hgood,
        fun j h1 h2 => by omega, fun k hk => ?_⟩
      · rw [hhead]; exact ⟨hx.head, hx.status⟩
      · rw [hm hb0]; exact hx.seal_ok
      · rw [hm hb0, hhead]
      · exact (hframe k (by omega) (by omega) (by omega)).trans (hd1 k (by omega) (by omega))
    | some f =>
      -- a block with a bad sector: on to the next one
      dsimp only at h
      obtain ⟨-, hf1, hf2, hf3⟩ := hsome f rfl
      obtain ⟨s₂, h2, hs2, hframe, hinv⟩ := markInvalid_bad hE (f := f) (show 128 * i + 64 < _ by omega) hs1
      rw [run_bind_of h2, run_modify_bind] at h
      obtain ⟨g, hg, hroot, hgood, hbefore, hd3⟩ := ih (i + 1) (by omega) (by
        show s₂.core.sectorHead + 128 = _
        rw [hs2]
        omega) h
      refine ⟨g, by omega, hroot, hgood, fun j h1 h2 => ?_, fun k hk => ?_⟩
      · rcases Nat.eq_or_lt_of_le h1 with rfl | hlt
        · refine ⟨⟨f, by omega, hf2⟩, fun hb => ?_⟩
          have hf0 : f ≠ 0 := by
            rintro rfl
            rw [Nat.add_zero, hb] at hf2
            exact absurd hf2 (by simp)
          have hsame := hd3 (128 * i) (by omega)
          have hst := hinv hf0 hb
          unfold headStateAt headAt at hst ⊢
          rw [hsame]
          exact hst
        · exact hbefore j hlt h2
      · exact (hd3 k (by omega)).trans
          ((hframe k (by omega) (by omega) (by omega)).trans (hd1 k (by omega) (by omega)))

/-! ## The first start -/

/-- A head that a search found is rooted there. -/
theorem rooted_of_found {j : ℕ} {x : SwapHead} (hj : j < maxSwapHeadBlockNum) (hf : found bad s.disk H j = some x)
    (hsec : s'.core.sectorHead = H + 128 * j) (hhead : s'.core.head = x)
    (hok : headStateAt bad s.disk H (128 * j) = .ok → ∀ y ≠ (H + (128 * j + 64)) % 2 ^ 32, s'.disk y = s.disk y)
    (hno : headStateAt bad s.disk H (128 * j) ≠ .ok →
        (∀ y ≠ (H + 128 * j) % 2 ^ 32, s'.disk y = s.disk y) ∧
        (E.BadSectors H bad → bad (128 * j) = false → s'.disk ((H + 128 * j) % 2 ^ 32) = swapHeadEquiv x)) :
    Rooted bad H s' j ∧ ∀ i < j, SameHeads H i s.disk s'.disk := by
  have hbound := block_bound hj
  have hgood : ∀ {k : ℕ}, headStateAt bad s.disk H k = .ok → bad k = false ∧ (headAt s.disk H k).state = .ok := by
    intro k hk
    cases hb : bad k with
    | true => exact absurd ((headStateAt_bad hb).symm.trans hk) (by simp)
    | false => exact ⟨rfl, (headStateAt_good hb).symm.trans hk⟩
  have hne : ∀ {a b : ℕ}, a < maxReservedSector → b < maxReservedSector → a ≠ b →
      (H + a) % 2 ^ 32 ≠ (H + b) % 2 ^ 32 :=
    fun ha hb hab he => hab (addr_inj ha hb he)
  unfold found at hf
  by_cases hst : headStateAt bad s.disk H (128 * j) = .ok
  · rw [if_pos hst] at hf
    obtain rfl := Option.some.inj hf
    obtain ⟨hg, hs⟩ := hgood hst
    have hd : headAt s'.disk H (128 * j) = headAt s.disk H (128 * j) := by
      unfold headAt
      rw [hok hst _ (hne (by omega) (by omega) (by omega))]
    refine ⟨⟨hj, hsec, hhead ▸ SwapHead.named_of_ok hs, 128 * j, Or.inl rfl,
      hg, by rw [hd]; exact hs, by rw [hd, hhead]⟩, ?_⟩
    exact fun i hi => ⟨hok hst _ (hne (by omega) (by omega) (by omega)),
      hok hst _ (hne (by omega) (by omega) (by omega))⟩
  · rw [if_neg hst] at hf
    split at hf
    · rename_i hst'
      obtain rfl := Option.some.inj hf
      obtain ⟨hg, hs⟩ := hgood hst'
      obtain ⟨hframe, hwritten⟩ := hno hst
      refine ⟨⟨hj, hsec, hhead ▸ SwapHead.named_of_ok hs, ?_⟩, fun i hi =>
        ⟨hframe _ (hne (by omega) (by omega) (by omega)), hframe _ (hne (by omega) (by omega) (by omega))⟩⟩
      cases hb : bad (128 * j) with
      | false =>
        have hd := headAt_of_eq (hwritten hE hb)
        exact ⟨128 * j, Or.inl rfl, hb, by rw [hd]; exact hs, by rw [hd, hhead]⟩
      | true =>
        have hd : headAt s'.disk H (128 * j + 64) = headAt s.disk H (128 * j + 64) := by
          unfold headAt
          rw [hframe _ (hne (by omega) (by omega) (by omega))]
        exact ⟨128 * j + 64, Or.inr ⟨rfl, rfl⟩, hg, by rw [hd]; exact hs, by rw [hd, hhead]⟩
    · exact absurd hf (by simp)

end create

/-- On a disk with these contents and bad sectors the first start finds a head; or it makes one,
and every block it had to pass over for that has both its copies in bad sectors or neither. -/
def Recoverable (bad : ℕ → Bool) (disk : ℕ → Sector) (H : ℕ) : Prop :=
  (∃ j < maxSwapHeadBlockNum, (∀ i < j, Skipped bad disk H i) ∧ ¬ Skipped bad disk H j ∧
    (found bad disk H j).isSome) ∨
    ∀ i < maxSwapHeadBlockNum, (∀ j ≤ i, ∃ k < 128, bad (128 * j + k) = true) → bad (128 * i) = true →
      bad (128 * i + 64) = true

/-- **What a successful `init_swap_head` leaves**: a head in its place, with no block in the way
just if the disk was recoverable. -/
theorem initSwapHead_rooted (hE : E.BadSectors H bad) (h0 : s.core.sectorHead = H)
    (h : (initSwapHead E H).run s = some (true, s')) :
    ∃ j, Rooted bad H s' j ∧ ((∀ i < j, Skipped bad s'.disk H i) ↔ Recoverable bad s.disk H) := by
  unfold initSwapHead at h
  rw [initHeadLoop_eq] at h
  by_cases hall : ∀ i < maxSwapHeadBlockNum, Skipped bad s.disk H i
  · -- every block is passed over: the start fails
    obtain ⟨s₁, -, h1⟩ := headLoop_search (n := 0) hE.read maxSwapHeadBlockNum 0 s (by decide)
      fun k _ hk => hall k (by omega)
    rw [show H = H + 128 * 0 by omega, ← Nat.add_zero maxSwapHeadBlockNum, h1] at h
    obtain ⟨u, s₂, h2, h3⟩ := run_bind_iff.1 h
    exact absurd (run_pure_iff.1 h3).1 (by simp)
  obtain ⟨j, hj, hno, hfirst⟩ := exists_first_not hall
  obtain ⟨s₁, hs1, h1⟩ := headLoop_enter hE.read hj hfirst
  rw [← hs1.disk] at hno hfirst
  rw [h1] at h
  rw [← hs1.disk]
  cases hf : found bad s₁.disk H j with
  | some x =>
    obtain ⟨s₂, h2, hsec, hhead, hok, hbk⟩ := headLoop_found (n := 1023 - j) hE.read (block_bound hj) hno hf
    obtain ⟨-, rfl⟩ := run_det (h2 _) h
    obtain ⟨hroot, hsame⟩ := rooted_of_found hE hj hf hsec hhead hok hbk
    refine ⟨j, hroot, iff_of_true (fun i hi => (hsame i hi).skipped.2 (hfirst i hi)) ?_⟩
    exact Or.inl ⟨j, hj, hfirst, hno, by rw [hf]; rfl⟩
  | none =>
    obtain ⟨s₂, hs2, h2⟩ := headLoop_create (n := 1023 - j) hE.read (block_bound hj) hno hf
    rw [h2] at h
    obtain ⟨ok, s₃, h3, h4⟩ := run_bind_iff.1 h
    cases ok with
    | false =>
      obtain ⟨u, s₄, -, h5⟩ := run_bind_iff.1 h4
      exact absurd (run_pure_iff.1 h5).1 (by simp)
    | true =>
      obtain ⟨-, rfl⟩ := run_pure_iff.1 h4
      unfold swapCreateNewHead at h3
      rw [run_modify_bind] at h3
      obtain ⟨g, -, hroot, hgood, hbefore, -⟩ :=
        createHeadLoop_bad hE maxSwapHeadBlockNum 0 (s := s₂.setHead SwapHead.zero)
        (Nat.zero_add _) (show s₂.core.sectorHead = H + 128 * 0 by rw [hs2.sector, hs1.sector, h0]; rfl) h3
      refine ⟨g, hroot, ?_, ?_⟩
      · -- a block with a bad first sector is passed over only if its other copy is bad too
        refine fun hskip => Or.inr fun i hi hbad hb => ?_
        have hig : i < g := by
          by_contra hge
          obtain ⟨k, hk, hbk⟩ := hbad g (by omega)
          rw [hgood k hk] at hbk
          exact absurd hbk (by simp)
        rcases hskip i hig with hs | ⟨-, hs⟩
        · exact absurd ((headStateAt_bad hb).symm.trans hs) (by simp)
        · exact headStateAt_fail.1 hs
      · rintro (⟨i, hi, hskip, hni, hfi⟩ | hpair)
        · -- the search had come to a block without a head
          obtain rfl : i = j := by
            rcases Nat.lt_trichotomy i j with hlt | he | hgt
            · exact absurd (hfirst i hlt) hni
            · exact he
            · exact absurd (hskip j hgt) hno
          rw [hf] at hfi
          exact absurd hfi (by simp)
        · intro i hi
          cases hb : bad (128 * i) with
          | false => exact Or.inl ((hbefore i (by omega) hi).2 hb)
          | true =>
            have hbb := hpair i (lt_trans hi hroot.lt) (fun k hk => (hbefore k (by omega) (by omega)).1) hb
            exact Or.inr ⟨headStateAt_bad hb, headStateAt_bad hbb⟩

/-- **When a head is found again.** The sectors `bad` fail for good. After a successful start, and
any number of bitmaps made permanent, the next start finds the same head with the last bitmap and
creates none, if and only if the disk was recoverable to begin with. -/
theorem head_recovered_iff (hE : E.BadSectors H bad) (h0 : s.core.sectorHead = H) {s₁ s₂ t : World}
    (h1 : (initSwapHead E H).run s = some (true, s₁)) {bs : List (BitVec 1024)}
    (h2 : (persist E bs).run s₁ = some (true, s₂)) (ht : t.disk = s₂.disk) :
    Recovers E H s₂ t ↔ Recoverable bad s.disk H := by
  obtain ⟨j, hroot, hiff⟩ := initSwapHead_rooted hE h0 h1
  obtain ⟨hroot₂, hsame⟩ := hroot.persist hE bs h2
  rw [hroot₂.recovers_iff hE.read ht, ← hiff]
  refine forall₂_congr fun i hi => ?_
  exact (hsame i (lt_trans hi hroot.lt) (by omega)).skipped

theorem scarred_badSectors {H : ℕ} {bad : ℕ → Bool} (hH : H + maxReservedSector ≤ 2 ^ 32) :
    (Env.scarred fun x => bad (x - H)).BadSectors H bad := by
  have hl : ∀ k < maxReservedSector, (H + k) % 2 ^ 32 - H = k := by
    intro k hk
    rw [Nat.mod_eq_of_lt (by omega)]
    omega
  refine ⟨⟨fun t k hk hb => ?_, fun t k hk hb => ?_⟩, fun t k buf hk hb => ?_, fun t k buf hk hb => ?_⟩ <;>
    simp only [Env.scarred, Env.refusing, hl k hk, hb, Bool.false_eq_true, if_false, if_true, IoResult.isOk]

/-- Both copies of the first block are in bad sectors: the head goes to the second block, and is
found there again. -/
theorem head_recovered_second_block :
    let bad : ℕ → Bool := fun k => k = 0 || k = 64
    let E := Env.scarred fun x => bad (x - 17384)
    let s : World := { World.blank with core := { World.blank.core with sectorHead := 17384 } }
    ∃ s₁ s₂, (initSwapHead E 17384).run s = some (true, s₁) ∧ (persist E [3, 5]).run s₁ = some (true, s₂) ∧
      s₂.core.sectorHead = 17384 + 128 ∧ s₂.core.head.bitmap = 5 ∧ ∀ t, t.disk = s₂.disk →
      Recovers E 17384 s₂ t := by
  intro bad E s
  have hrun : ((do
      let ok ← initSwapHead E 17384
      let ok' ← persist E [3, 5]
      let s₂ ← get
      return decide (ok = true ∧ ok' = true ∧ s₂.core.sectorHead = 17384 + 128 ∧ s₂.core.head.bitmap = 5) :
        SwapM Bool).run s).map Prod.fst = some true := by decide +kernel
  obtain ⟨s', h⟩ := run_of_result hrun
  obtain ⟨ok, s₁, h1, h⟩ := run_bind_iff.1 h
  obtain ⟨ok', s₂, h2, h⟩ := run_bind_iff.1 h
  rw [run_get_bind] at h
  obtain ⟨e, rfl⟩ := run_pure_iff.1 h
  obtain ⟨rfl, rfl, hsec, hbm⟩ := of_decide_eq_true e.symm
  have hE : E.BadSectors 17384 bad := scarred_badSectors (by decide)
  refine ⟨s₁, s', h1, h2, hsec, hbm, fun t ht =>
    (head_recovered_iff hE rfl h1 h2 ht).2 (Or.inr fun i _ _ hb => ?_)⟩
  simp only [bad, Bool.or_eq_true, decide_eq_true_eq] at hb ⊢
  omega

/-- **A head lost.** Only the first sector of the first block is bad. The creation passes over the
block without a mark, and the next start takes its blank backup copy for a reason to create a head
again. -/
theorem head_created_again :
    let E := Env.scarred fun x => x = 17384
    let s : World := { World.blank with core := { World.blank.core with sectorHead := 17384 } }
    ∃ s₁ s₂ t', (initSwapHead E 17384).run s = some (true, s₁) ∧ (persist E [5]).run s₁ = some (true, s₂) ∧
      (initSwapHead E 17384).run { s₂ with core := { s₂.core with sectorHead := 17384 } } = some (true, t') ∧
      s₂.core.head.bitmap = 5 ∧ t'.core.head.bitmap = 0 := by
  intro E s
  have hrun : ((do
      let ok ← initSwapHead E 17384
      let ok' ← persist E [5]
      let s₂ ← get
      set { s₂ with core := { s₂.core with sectorHead := 17384 } }
      let ok'' ← initSwapHead E 17384
      let t ← get
      return decide (ok = true ∧ ok' = true ∧ ok'' = true ∧ s₂.core.head.bitmap = 5 ∧ t.core.head.bitmap = 0) :
        SwapM Bool).run s).map Prod.fst = some true := by decide +kernel
  obtain ⟨t', h⟩ := run_of_result hrun
  obtain ⟨ok, s₁, h1, h⟩ := run_bind_iff.1 h
  obtain ⟨ok', s₂, h2, h⟩ := run_bind_iff.1 h
  rw [run_get_bind, run_set_bind] at h
  obtain ⟨ok'', t, h3, h⟩ := run_bind_iff.1 h
  rw [run_get_bind] at h
  obtain ⟨e, rfl⟩ := run_pure_iff.1 h
  obtain ⟨rfl, rfl, rfl, hbm, hbm'⟩ := of_decide_eq_true e.symm
  exact ⟨s₁, s₂, t', h1, h2, h3, hbm, hbm'⟩

/-! ## Single failed writes -/

/-- A write that succeeds, or fails and leaves the sector as it was. -/
def IoResult.Clean (ok : Bool) (r : IoResult) : Prop := if ok then r = .ok else ∃ nc, r = .fail (fun _ => none) nc

/-- A call of `flush_swap_head` with a bitmap, and what becomes of its two writes. -/
structure FlushCall (sectorHead : ℕ) where
  bitmap : BitVec 1024
  env : Env
  masterOk : Bool
  backupOk : Bool
  master : ∀ t buf, (env.write t ⟨sectorHead % 2 ^ 32, 1, 5⟩ buf).Clean masterOk
  backup : ∀ t buf, (env.write t ⟨(sectorHead + 64) % 2 ^ 32, 1, 5⟩ buf).Clean backupOk

def FlushCall.exec {sectorHead : ℕ} (c : FlushCall sectorHead) : SwapM Bool := do
  modify fun s => s.setBitmap c.bitmap
  flushSwapHead c.env

/-- The bitmap of the last call whose write of the master succeeded; `b` if there is none. -/
def lastMaster {sectorHead : ℕ} (b : BitVec 1024) (cs : List (FlushCall sectorHead)) : BitVec 1024 :=
  cs.foldl (fun b c => if c.masterOk then c.bitmap else b) b

theorem writeOne_clean {w : Writer} {sector : ℕ} {b : Sector} {a ok : Bool}
    (hE : ∀ t buf, (E.write t ⟨sector % 2 ^ 32, 1, 5⟩ buf).Clean ok)
    (h : (hdWriteSectorRetry E w sector 1 fun _ => b).run s = some (a, s')) :
    a = ok ∧ s'.disk = if ok then Function.update s.disk (sector % 2 ^ 32) b else s.disk := by
  obtain ⟨rfl, hd⟩ := hdWriteSector_one h
  have hc := hE s.tick fun _ => b
  cases ok with
  | true =>
    have hio : E.write s.tick ⟨sector % 2 ^ 32, 1, 5⟩ (fun _ => b) = .ok := hc
    rw [hio] at hd ⊢
    exact ⟨rfl, hd⟩
  | false =>
    obtain ⟨nc, hio⟩ : ∃ nc, E.write s.tick ⟨sector % 2 ^ 32, 1, 5⟩ (fun _ => b) = .fail (fun _ => none) nc := hc
    rw [hio] at hd ⊢
    exact ⟨rfl, hd.trans (Function.update_eq_self _ _)⟩

/-- The master copy in block `j` is a good one with bitmap `m`, and a search comes that far. -/
structure Led (H : ℕ) (s : World) (j : ℕ) (m : BitVec 1024) : Prop where
  lt : j < maxSwapHeadBlockNum
  sector : s.core.sectorHead = H + 128 * j
  named : s.core.head.Named
  master : (headAt s.disk H (128 * j)).state = .ok ∧ (headAt s.disk H (128 * j)).bitmap = m
  before : ∀ i < j, Skipped (fun _ => false) s.disk H i

theorem Led.exec {j : ℕ} {m : BitVec 1024} {a : Bool} {k : ℕ} {c : FlushCall k} (h : Led H s j m)
    (hk : k = H + 128 * j) (hc : c.exec.run s = some (a, s')) :
    a = c.backupOk ∧ Led H s' j (if c.masterOk then c.bitmap else m) := by
  subst hk
  have hbound := block_bound h.lt
  unfold FlushCall.exec at hc
  rw [run_modify_bind] at hc
  obtain ⟨s₁, s₂, ok, ok', h1, h2, hrun, hsec, hhead⟩ := flushSwapHead_run c.env (s.setBitmap c.bitmap)
  obtain ⟨rfl, rfl⟩ := run_det hrun hc
  have hs : (s.setBitmap c.bitmap).core.sectorHead = H + 128 * j := h.sector
  rw [hs] at h1 h2
  obtain ⟨-, hd1⟩ := writeOne_clean c.master h1
  obtain ⟨rfl, hd2⟩ := writeOne_clean c.backup h2
  have hn : (s.setBitmap c.bitmap).core.head.Named := ⟨h.named.head, h.named.status⟩
  -- no sector but the two of the block
  have hframe : ∀ k < maxReservedSector, k ≠ 128 * j → k ≠ 128 * j + 64 →
      s'.disk ((H + k) % 2 ^ 32) = s.disk ((H + k) % 2 ^ 32) := by
    intro k hk hk1 hk2
    have e1 : (H + k) % 2 ^ 32 ≠ (H + 128 * j) % 2 ^ 32 := fun he => hk1 (addr_inj hk (by omega) he)
    have e2 : (H + k) % 2 ^ 32 ≠ (H + 128 * j + 64) % 2 ^ 32 := by
      rw [Nat.add_assoc H]
      exact fun he => hk2 (addr_inj hk (by omega) he)
    rw [hd2]
    split
    · rw [Function.update_of_ne e2, hd1]
      split
      · rw [Function.update_of_ne e1]; rfl
      · rfl
    · rw [hd1]
      split
      · rw [Function.update_of_ne e1]; rfl
      · rfl
  have hmaster : s'.disk ((H + 128 * j) % 2 ^ 32) = s₁.disk ((H + 128 * j) % 2 ^ 32) := by
    rw [hd2]
    split
    · refine Function.update_of_ne ?_ _ _
      rw [Nat.add_assoc H]
      exact fun he => absurd (addr_inj (by omega) (by omega) he) (by omega)
    · rfl
  refine ⟨rfl, h.lt, hsec.trans hs, by rw [hhead]; exact ⟨hn.head, hn.status⟩, ?_, fun i hi => ?_⟩
  · cases hm : c.masterOk with
    | true =>
      rw [hm, if_pos rfl] at hd1
      rw [headAt_of_eq (hmaster.trans (by rw [hd1, Function.update_self]))]
      exact ⟨hn.seal_ok, rfl⟩
    | false =>
      rw [hm, if_neg (by simp)] at hd1
      unfold headAt
      rw [hmaster, hd1]
      exact h.master
  · have hsame : SameHeads H i s.disk s'.disk :=
      ⟨hframe _ (by omega) (by omega) (by omega), hframe _ (by omega) (by omega) (by omega)⟩
    exact hsame.skipped.2 (h.before i hi)

theorem Led.execAll {j k : ℕ} (hk : k = H + 128 * j) :
    ∀ {cs : List (FlushCall k)} {m : BitVec 1024} {s s' : World}
    {rs : List Bool}, Led H s j m → (runAll FlushCall.exec cs).run s = some (rs, s') →
    Led H s' j (lastMaster m cs) := by
  intro cs
  induction cs with
  | nil =>
    intro m s s' rs h hrun
    obtain ⟨-, rfl⟩ := run_pure_iff.1 hrun
    exact h
  | cons c cs ih =>
    intro m s s' rs h hrun
    obtain ⟨r, s₁, h1, h2⟩ := run_bind_iff.1 hrun
    obtain ⟨rs', s₂, h3, h4⟩ := run_bind_iff.1 h2
    obtain ⟨-, rfl⟩ := run_pure_iff.1 h4
    exact ih (h.exec hk h1).2 h3

/-- A start loads the master copy. -/
theorem Led.loads (hE : E.ReadFaults H fun _ => false) {j : ℕ} {m : BitVec 1024} {t : World} (h : Led H s j m)
    (ht : t.disk = s.disk) : ∃ t', (initSwapHead E H).run t = some (true, t') ∧ t'.core.head.bitmap = m := by
  obtain ⟨hok, hm⟩ := h.master
  have hst : headStateAt (fun _ => false) s.disk H (128 * j) = .ok := (headStateAt_good rfl).trans hok
  have hno : ¬ Skipped (fun _ => false) s.disk H j := by
    rintro (hs | ⟨hs, -⟩) <;> exact absurd (hst.symm.trans hs) (by simp)
  have hf : found (fun _ => false) s.disk H j = some (headAt s.disk H (128 * j)) := if_pos hst
  have hbefore := h.before
  rw [← ht] at hbefore hno hf
  obtain ⟨t₁, hs1, h1⟩ := headLoop_enter hE h.lt hbefore
  rw [← hs1.disk] at hno hf
  obtain ⟨t₂, h2, -, hhead, -⟩ := headLoop_found (n := 1023 - j) hE (block_bound h.lt) hno hf
  refine ⟨t₂, ?_, by rw [hhead, hs1.disk, ht]; exact hm⟩
  unfold initSwapHead
  rw [initHeadLoop_eq]
  exact (h1 _).trans (h2 _)

/-- A start without failures leaves the head of memory in the master sector. -/
theorem led_of_init {s₀ : World} (hE : E.BadSectors H fun _ => false) (h0 : s₀.core.sectorHead = H)
    (hinit : (initSwapHead E H).run s₀ = some (true, s)) :
    ∃ j, s.core.sectorHead = H + 128 * j ∧ Led H s j s.core.head.bitmap := by
  obtain ⟨j, hroot, hiff⟩ := initSwapHead_rooted hE h0 hinit
  obtain ⟨k, hk, -, hok, hbm⟩ := hroot.copy
  obtain rfl : k = 128 * j := hk.resolve_right fun h => absurd h.1 (by simp)
  exact ⟨j, hroot.sector, hroot.lt, hroot.sector, hroot.named, ⟨hok, hbm⟩,
    hiff.2 (Or.inr fun _ _ _ h => absurd h (by simp))⟩

/-- **When the newest head wins.** After a start without failures, and flushes whose single writes
fail or not, of which the last returns 0, the next start loads the bitmap of the last flush if and
only if the last write of the master that succeeded had that bitmap. -/
theorem newest_head_wins_iff {E₀ E₁ : Env} {s₀ s₁ s₂ t : World} (hE₀ : E₀.BadSectors H fun _ => false)
    (h0 : s₀.core.sectorHead = H) (hinit : (initSwapHead E₀ H).run s₀ = some (true, s))
    {cs : List (FlushCall s.core.sectorHead)} {c : FlushCall s.core.sectorHead} {rs : List Bool}
    (hcs : (runAll FlushCall.exec cs).run s = some (rs, s₁)) (hc : c.exec.run s₁ = some (true, s₂))
    (hE₁ : E₁.ReadFaults H fun _ => false) (ht : t.disk = s₂.disk) :
    (∃ t', (initSwapHead E₁ H).run t = some (true, t') ∧ t'.core.head.bitmap = c.bitmap) ↔
      lastMaster s.core.head.bitmap (cs ++ [c]) = c.bitmap := by
  obtain ⟨j, hsec, hled⟩ := led_of_init hE₀ h0 hinit
  have hled₂ := ((hled.execAll hsec hcs).exec hsec hc).2
  rw [show (if c.masterOk then c.bitmap else lastMaster s.core.head.bitmap cs) =
    lastMaster s.core.head.bitmap (cs ++ [c]) by simp [lastMaster]] at hled₂
  obtain ⟨t', hrun, hbm⟩ := hled₂.loads hE₁ ht
  constructor
  · rintro ⟨t₁, h1, he⟩
    obtain ⟨-, rfl⟩ := run_det hrun h1
    exact hbm.symm.trans he
  · exact fun he => ⟨t', hrun, hbm.trans he⟩

theorem refusing_master (sectorHead : ℕ) (masterOk backupOk : Bool) : ∀ t buf,
    ((Env.refusing fun c _ => (c.lba = sectorHead % 2 ^ 32 && !masterOk) ||
      (c.lba = (sectorHead + 64) % 2 ^ 32 && !backupOk)).write t ⟨sectorHead % 2 ^ 32, 1, 5⟩ buf).Clean
        masterOk := by
  intro t buf
  cases masterOk with
  | false => simp [IoResult.Clean, Env.refusing]
  | true =>
    simp only [IoResult.Clean, Env.refusing, Bool.not_true, Bool.and_false, Bool.false_or, if_true]
    rw [if_neg (by simp; omega)]

theorem refusing_backup (sectorHead : ℕ) (masterOk backupOk : Bool) : ∀ t buf,
    ((Env.refusing fun c _ => (c.lba = sectorHead % 2 ^ 32 && !masterOk) ||
      (c.lba = (sectorHead + 64) % 2 ^ 32 && !backupOk)).write t ⟨(sectorHead + 64) % 2 ^ 32, 1, 5⟩ buf).Clean
        backupOk := by
  intro t buf
  cases backupOk with
  | false => simp [IoResult.Clean, Env.refusing]
  | true =>
    simp only [IoResult.Clean, Env.refusing, Bool.not_true, Bool.and_false, Bool.or_false, if_true]
    rw [if_neg (by simp; omega)]

/-- Every pattern of failures of the two writes is possible. -/
def FlushCall.of (sectorHead : ℕ) (bitmap : BitVec 1024) (masterOk backupOk : Bool) : FlushCall sectorHead where
  bitmap := bitmap
  env := .refusing fun c _ =>
    (c.lba = sectorHead % 2 ^ 32 && !masterOk) || (c.lba = (sectorHead + 64) % 2 ^ 32 && !backupOk)
  masterOk := masterOk
  backupOk := backupOk
  master := refusing_master sectorHead masterOk backupOk
  backup := refusing_backup sectorHead masterOk backupOk

theorem faultless_badSectors (H : ℕ) : (Env.refusing fun _ _ => false).BadSectors H fun _ => false :=
  ⟨⟨fun _ _ _ _ => rfl, fun _ _ _ h => absurd h (by simp)⟩, fun _ _ _ _ _ => rfl,
    fun _ _ _ _ h => absurd h (by simp)⟩

/-- The master copy misses one flush and gets the next one: the bitmap of that one is loaded. -/
theorem newest_head_wins_second :
    let E := Env.refusing fun _ _ => false
    let s₀ : World := { World.blank with core := { World.blank.core with sectorHead := 17384 } }
    ∃ s s₁ s₂ t' rs, (initSwapHead E 17384).run s₀ = some (true, s) ∧
      (runAll FlushCall.exec [FlushCall.of s.core.sectorHead 3 false true]).run s = some (rs, s₁) ∧
      (FlushCall.of s.core.sectorHead 5 true true).exec.run s₁ = some (true, s₂) ∧
      (initSwapHead E 17384).run s₂ = some (true, t') ∧ t'.core.head.bitmap = 5 := by
  intro E s₀
  have hrun : ((do
      let ok ← initSwapHead E 17384
      let s ← get
      let _ ← runAll FlushCall.exec [FlushCall.of s.core.sectorHead 3 false true]
      let ok' ← (FlushCall.of s.core.sectorHead 5 true true).exec
      return decide (ok = true ∧ ok' = true) : SwapM Bool).run s₀).map Prod.fst = some true := by decide +kernel
  obtain ⟨s', h⟩ := run_of_result hrun
  obtain ⟨ok, s, h1, h⟩ := run_bind_iff.1 h
  rw [run_get_bind] at h
  obtain ⟨rs, s₁, h2, h⟩ := run_bind_iff.1 h
  obtain ⟨ok', s₂, h3, h⟩ := run_bind_iff.1 h
  obtain ⟨e, rfl⟩ := run_pure_iff.1 h
  obtain ⟨rfl, rfl⟩ := of_decide_eq_true e.symm
  have hE : E.BadSectors 17384 fun _ => false := faultless_badSectors 17384
  obtain ⟨t', h4, hbm⟩ := (newest_head_wins_iff hE rfl h1 h2 h3 hE.read rfl).2
    (by simp [lastMaster, FlushCall.of])
  exact ⟨s, s₁, s', t', rs, h1, h2, h3, h4, hbm⟩

/-- **An older head wins.** The flush of a bitmap fails in the master sector only and returns 0; the
next start loads the bitmap that was there before. -/
theorem older_head_wins :
    let E := Env.refusing fun _ _ => false
    let s₀ : World := { World.blank with core := { World.blank.core with sectorHead := 17384 } }
    ∃ s s₁ t', (initSwapHead E 17384).run s₀ = some (true, s) ∧
      (FlushCall.of s.core.sectorHead 5 false true).exec.run s = some (true, s₁) ∧
      (initSwapHead E 17384).run s₁ = some (true, t') ∧ t'.core.head.bitmap = 0 := by
  intro E s₀
  have hrun : ((do
      let ok ← initSwapHead E 17384
      let s ← get
      let ok' ← (FlushCall.of s.core.sectorHead 5 false true).exec
      return decide (ok = true ∧ ok' = true ∧ s.core.head.bitmap = 0) : SwapM Bool).run s₀).map Prod.fst =
      some true := by decide +kernel
  obtain ⟨s', h⟩ := run_of_result hrun
  obtain ⟨ok, s, h1, h⟩ := run_bind_iff.1 h
  rw [run_get_bind] at h
  obtain ⟨ok', s₁, h2, h⟩ := run_bind_iff.1 h
  obtain ⟨e, rfl⟩ := run_pure_iff.1 h
  obtain ⟨rfl, rfl, hbm⟩ := of_decide_eq_true e.symm
  -- the master sector still has the first bitmap
  have hE : E.BadSectors 17384 fun _ => false := faultless_badSectors 17384
  obtain ⟨j, hsec, hled⟩ := led_of_init hE rfl h1
  obtain ⟨t', h3, hbm'⟩ := (hled.exec hsec h2).2.loads hE.read rfl
  exact ⟨s, s', t', h1, h2, h3, hbm'.trans hbm⟩

end ScsiSwap
