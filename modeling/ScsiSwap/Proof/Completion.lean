import ScsiSwap.Proof.Divert

/-!
# Completion in pieces

A request may complete a bio in several calls of `req_bio_endio`. A failed call is remembered in the
flag `BIO_UPTODATE` only: when the bio is complete, `swap_bio` gets the position and length the
bio had before the last call.

* `pieces size off cs`: the parts of the bio the calls complete;
* `endCalls_spec`: what the calls come to;
* `completion_stores_iff`: when a bio that is ended with 0 has been stored.
-/

namespace ScsiSwap

open StateOption

variable {E : Env} {b : Bdev} {bio bio' : Bio} {cs : List EndCall} {out : Outcome} {s s' : World}

/-! ## Pieces -/

/-- Bytes `start` to `start + len` of a bio, which a call completed with `error`. -/
structure Piece where
  start : ℕ
  len : ℕ
  error : ℤ
  deriving DecidableEq

def Piece.Has (p : Piece) (x : ℕ) : Prop := p.start ≤ x ∧ x < p.start + p.len

/-- The pieces of a bio with `left` bytes to go from byte `off` on. -/
def pieces : ℕ → ℕ → List EndCall → List Piece
  | _, _, [] => []
  | left, off, c :: cs =>
    let n := min c.nbytes left
    ⟨off, n, c.error⟩ :: if left - n = 0 then [] else pieces (left - n) (off + n) cs

/-- By how many sectors the bio was advanced before the last call, and how many bytes it had left. -/
def lastCall : ℕ → List EndCall → ℕ × ℕ
  | left, [] => (0, left)
  | left, c :: cs =>
    let n := min c.nbytes left
    if left - n = 0 then (0, left)
    else
      let r := lastCall (left - n) cs
      (n >>> 9 + r.1, r.2)

theorem pieces_ge : ∀ {left off : ℕ} {cs : List EndCall}, ∀ p ∈ pieces left off cs, off ≤ p.start := by
  intro left off cs
  induction cs generalizing left off with
  | nil => intro p hp; exact absurd hp (by simp [pieces])
  | cons c cs ih =>
    intro p hp
    rcases List.mem_cons.1 hp with rfl | hp
    · exact le_rfl
    · split at hp
      · exact absurd hp (by simp)
      · exact (Nat.le_add_right _ _).trans (ih p hp)

theorem pieces_le : ∀ {left off : ℕ} {cs : List EndCall}, ∀ p ∈ pieces left off cs,
    p.start + p.len ≤ off + left := by
  intro left off cs
  induction cs generalizing left off with
  | nil => intro p hp; exact absurd hp (by simp [pieces])
  | cons c cs ih =>
    intro p hp
    rcases List.mem_cons.1 hp with rfl | hp
    · dsimp only
      omega
    · split at hp
      · exact absurd hp (by simp)
      · have := ih p hp
        omega

/-- No byte is in two pieces. -/
theorem pieces_pairwise : ∀ {left off : ℕ} {cs : List EndCall},
    (pieces left off cs).Pairwise fun p q => ∀ x, p.Has x → ¬ q.Has x := by
  intro left off cs
  induction cs generalizing left off with
  | nil => exact List.Pairwise.nil
  | cons c cs ih =>
    refine List.pairwise_cons.2 ⟨?_, ?_⟩
    · intro q hq x hp hx
      split at hq
      · exact absurd hq (by simp)
      · have h1 := pieces_ge q hq
        have h2 := hp.2
        have h3 := hx.1
        dsimp only at h2
        omega
    · split
      · exact List.Pairwise.nil
      · exact ih

theorem pieces_unique {left off x : ℕ} {p q : Piece} (hp : p ∈ pieces left off cs) (hq : q ∈ pieces left off cs)
    (hpx : p.Has x) (hqx : q.Has x) : p.error = q.error := by
  by_contra hne
  have hsymm : Std.Symm fun p q : Piece => ∀ x, p.Has x → ¬ q.Has x := ⟨fun p q h x hq hp => h x hp hq⟩
  exact pieces_pairwise.forall hp hq (fun h => hne (congrArg Piece.error h)) x hpx hqx

/-! ## The calls -/

/-- What calls that complete a bio come to. -/
structure Completed (bio : Bio) (cs : List EndCall) (off : ℕ) (out : Outcome) : Prop where
  /-- Every byte is in a piece. -/
  cover : ∀ x, off ≤ x → x < off + bio.size → ∃ p ∈ pieces bio.size off cs, p.Has x
  /-- The bio goes to the swap code with what the last call completed. -/
  handed : ∀ item, out = .handed item →
    item.startSec = bio.sector + (lastCall bio.size cs).1 ∧ item.size = s32 (lastCall bio.size cs).2
  /-- A bio that is ended with 0 has no failed piece. -/
  ended : out = .ended 0 → bio.uptodate = true ∧ ∀ p ∈ pieces bio.size off cs, p.error = 0

/-- The last call. -/
theorem completed_last {c : EndCall} (hlast : bio.size - min c.nbytes bio.size = 0) {off : ℕ}
    (hh : ∀ item, out = .handed item → item.startSec = bio.sector ∧ item.size = s32 bio.size)
    (he : out = .ended 0 → bio.uptodate = true ∧ c.error = 0) : Completed bio (c :: cs) off out := by
  have hp : pieces bio.size off (c :: cs) = [⟨off, min c.nbytes bio.size, c.error⟩] := by
    unfold pieces
    dsimp only
    rw [if_pos hlast]
  have hl : lastCall bio.size (c :: cs) = (0, bio.size) := by
    unfold lastCall
    dsimp only
    rw [if_pos hlast]
  refine ⟨?_, ?_, ?_⟩
  · intro x h1 h2
    rw [hp]
    refine ⟨_, List.mem_singleton_self _, h1, ?_⟩
    dsimp only
    omega
  · intro item hi
    rw [hl]
    exact hh item hi
  · intro ho
    obtain ⟨hu, hz⟩ := he ho
    rw [hp]
    refine ⟨hu, fun p hmem => ?_⟩
    rw [List.mem_singleton.1 hmem]
    exact hz

/-- A call before the last. -/
theorem completed_next {c : EndCall} (hmore : bio.size - min c.nbytes bio.size ≠ 0) {off : ℕ}
    (h : Completed { bio with
        uptodate := bio.uptodate && decide (c.error = 0)
        size := bio.size - min c.nbytes bio.size
        sector := bio.sector + min c.nbytes bio.size >>> 9 } cs (off + min c.nbytes bio.size) out) :
    Completed bio (c :: cs) off out := by
  have hp : pieces bio.size off (c :: cs) = ⟨off, min c.nbytes bio.size, c.error⟩ ::
      pieces (bio.size - min c.nbytes bio.size) (off + min c.nbytes bio.size) cs := by
    rw [pieces, if_neg hmore]
  have hl : lastCall bio.size (c :: cs) = (min c.nbytes bio.size >>> 9 +
      (lastCall (bio.size - min c.nbytes bio.size) cs).1,
        (lastCall (bio.size - min c.nbytes bio.size) cs).2) := by
    rw [lastCall, if_neg hmore]
  refine ⟨?_, ?_, ?_⟩
  · intro x h1 h2
    rw [hp]
    by_cases hx : x < off + min c.nbytes bio.size
    · exact ⟨_, List.mem_cons_self, h1, hx⟩
    · obtain ⟨p, hmem, hhas⟩ := h.cover x (by omega) (by dsimp only; omega)
      exact ⟨p, List.mem_cons_of_mem _ hmem, hhas⟩
  · intro item hi
    rw [hl]
    obtain ⟨h1, h2⟩ := h.handed item hi
    exact ⟨h1.trans (Nat.add_assoc ..), h2⟩
  · intro ho
    obtain ⟨hu, hz⟩ := h.ended ho
    simp only [Bool.and_eq_true, decide_eq_true_eq] at hu
    rw [hp]
    refine ⟨hu.1, fun p hmem => ?_⟩
    rcases List.mem_cons.1 hmem with rfl | hmem
    · exact hu.2
    · exact hz p hmem

theorem endCalls_spec : ∀ {cs : List EndCall} {bio bio' : Bio} {off : ℕ} {s s' : World} {out : Outcome},
    (endCalls E b cs bio).run s = some ((bio', out), s') → out ≠ .pending → Completed bio cs off out := by
  intro cs
  induction cs with
  | nil =>
    intro bio bio' off s s' out h hout
    obtain ⟨e, -⟩ := run_pure_iff.1 h
    exact absurd (congrArg Prod.snd e) hout
  | cons c cs ih =>
    intro bio bio' off s s' out h hout
    obtain ⟨⟨bio₁, out₁⟩, s₁, h1, h2⟩ := run_bind_iff.1 h
    unfold reqBioEndio at h1
    dsimp only at h1
    split at h1
    · rename_i hlast
      obtain ⟨o, s₂, g1, g2⟩ := run_bind_iff.1 h1
      cases o with
      | some item =>
        obtain ⟨e, rfl⟩ := run_pure_iff.1 g2
        obtain ⟨-, rfl⟩ := Prod.mk.inj e
        obtain ⟨e, -⟩ := run_pure_iff.1 h2
        obtain rfl := congrArg Prod.snd e
        refine completed_last hlast ?_ fun h => absurd h (by simp)
        intro item' hi
        obtain rfl := Outcome.handed.inj hi
        obtain ⟨rfl, -⟩ := (swapBio_run g1).2 item rfl
        exact ⟨rfl, rfl⟩
      | none =>
        obtain ⟨e, rfl⟩ := run_pure_iff.1 g2
        obtain ⟨-, rfl⟩ := Prod.mk.inj e
        obtain ⟨e, -⟩ := run_pure_iff.1 h2
        obtain rfl := congrArg Prod.snd e
        refine completed_last hlast (fun _ h => absurd h (by simp)) ?_
        intro he
        have hz := Outcome.ended.inj he
        split at hz
        · exact absurd hz (by decide)
        · rename_i hn
          rw [hz] at hn
          exact ⟨by simpa using hn, hz⟩
    · rename_i hmore
      obtain ⟨e, rfl⟩ := run_pure_iff.1 h1
      obtain ⟨rfl, rfl⟩ := Prod.mk.inj e
      exact completed_next hmore (ih h2 hout)

/-! ## Stored sectors -/

/-- Sector `k` of the bio was completed without an error. -/
def Acknowledged (bio : Bio) (cs : List EndCall) (k : ℕ) : Prop :=
  ∀ x, 512 * k ≤ x → x < 512 * k + 512 → x < bio.size → ∃ p ∈ pieces bio.size 0 cs, p.error = 0 ∧ p.Has x

/-- Sector `k` of the bio is in the range the handler passes to `scsi_swap_core_write`. -/
def Rewritten (bio : Bio) (out : Outcome) (buf : ℕ → Sector) (k : ℕ) : Prop :=
  ∃ item, out = .handed item ∧ (item.request bio buf).isWrite = true ∧
    (item.request bio buf).Covers (bio.sector + k)

/-- The bio is ended with 0, at once or by the swap worker. -/
def EndsWell (bio : Bio) (out : Outcome) (buf : ℕ → Sector) : Prop :=
  out = .ended 0 ∨ ∃ item, out = .handed item ∧
    ∃ E t buf' t', (swapBioWorkHandler E item bio buf).run t = some ((0, buf'), t')

/-- A handler that succeeds was given a size. -/
theorem handler_size {item : SwapBioItem} {buf buf' : ℕ → Sector}
    (h : (swapBioWorkHandler E item bio buf).run s = some ((0, buf'), s')) : 0 ≤ item.size := by
  unfold swapBioWorkHandler at h
  obtain ⟨ok, s₁, -, h2⟩ := run_bind_iff.1 h
  split at h2
  · rename_i hok
    exact hok.2
  · obtain ⟨e, -⟩ := run_pure_iff.1 h2
    exact absurd (congrArg Prod.fst e) (by simp [eio])

theorem lastCall_le : ∀ (left : ℕ) (cs : List EndCall), (lastCall left cs).2 ≤ left := by
  intro left cs
  induction cs generalizing left with
  | nil => exact le_rfl
  | cons c cs ih =>
    unfold lastCall
    dsimp only
    split
    · exact le_rfl
    · exact (ih _).trans (Nat.sub_le _ _)

/-- **When a write bio that is ended with 0 is stored**: exactly if every failed piece lies in the
sectors that are written again, those the bio had left before the last call. -/
theorem completion_stores_iff {bio bio' : Bio} {cs : List EndCall} {out : Outcome} {buf : ℕ → Sector}
    (hw : bio.isWrite = true) (hsize : bio.size < 2 ^ 32)
    (hrun : (endCalls E b cs bio).run s = some ((bio', out), s'))
    (hend : EndsWell bio out buf) :
    (∀ k, 512 * k < bio.size → Acknowledged bio cs k ∨ Rewritten bio out buf k) ↔
      ∀ p ∈ pieces bio.size 0 cs, p.error ≠ 0 → 0 < p.len →
        (lastCall bio.size cs).1 ≤ p.start / 512 ∧
          (p.start + p.len - 1) / 512 < (lastCall bio.size cs).1 + (lastCall bio.size cs).2 / 512 := by
  have hdone : out ≠ .pending := by
    rintro rfl
    rcases hend with h | ⟨item, h, -⟩ <;> exact absurd h (by simp)
  have hspec : Completed bio cs 0 out := endCalls_spec hrun hdone
  -- the sectors that are written again
  have hre : ∀ k, Rewritten bio out buf k ↔ (∃ item, out = .handed item) ∧ (lastCall bio.size cs).1 ≤ k ∧
      k < (lastCall bio.size cs).1 + (lastCall bio.size cs).2 / 512 := by
    intro k
    have hsize' : ∀ item, out = .handed item → item.size.toNat >>> 9 = (lastCall bio.size cs).2 / 512 := by
      intro item hi
      obtain ⟨-, h2⟩ := hspec.handed item hi
      rcases hend with h | ⟨item', h, E', t, buf', t', hh⟩
      · rw [h] at hi
        exact absurd hi (by simp)
      · obtain rfl := Outcome.handed.inj (hi.symm.trans h)
        have h0 := handler_size hh
        have hle := lastCall_le bio.size cs
        rw [h2, Nat.shiftRight_eq_div_pow] at *
        unfold s32 at h0 ⊢
        omega
    constructor
    · rintro ⟨item, hi, -, h1, h2⟩
      refine ⟨⟨item, hi⟩, ?_⟩
      have h3 := (hspec.handed item hi).1
      have h4 := hsize' item hi
      simp only [SwapBioItem.request] at h1 h2
      omega
    · rintro ⟨⟨item, hi⟩, h1, h2⟩
      refine ⟨item, hi, hw, ?_, ?_⟩ <;> simp only [SwapBioItem.request]
      · rw [(hspec.handed item hi).1]; omega
      · rw [(hspec.handed item hi).1, hsize' item hi]; omega
  constructor
  · intro h p hp herr hlen
    -- no sector with a byte of a failed piece is acknowledged
    have hbyte : ∀ x, p.Has x → (lastCall bio.size cs).1 ≤ x / 512 ∧
        x / 512 < (lastCall bio.size cs).1 + (lastCall bio.size cs).2 / 512 := by
      intro x hx
      have hlt := pieces_le p hp
      have hxe := hx.2
      rcases h (x / 512) (by omega) with hack | hrew
      · obtain ⟨q, hq, hzero, hqx⟩ := hack x (by omega) (by omega) (by omega)
        exact absurd ((pieces_unique hp hq hx hqx).trans hzero) herr
      · exact ((hre _).1 hrew).2
    exact ⟨(hbyte p.start ⟨le_rfl, by omega⟩).1, (hbyte (p.start + p.len - 1) ⟨by omega, by omega⟩).2⟩
  · intro h k hk
    by_cases hack : Acknowledged bio cs k
    · exact Or.inl hack
    · -- a byte of the sector is in a failed piece
      right
      unfold Acknowledged at hack
      push Not at hack
      obtain ⟨x, h1, h2, h3, hx⟩ := hack
      obtain ⟨p, hp, hhas⟩ := hspec.cover x (Nat.zero_le _) (by omega)
      have herr : p.error ≠ 0 := fun he => hx p hp he hhas
      have hb := hhas.1
      have he := hhas.2
      obtain ⟨hlo, hhi⟩ := h p hp herr (by omega)
      refine (hre k).2 ⟨?_, ?_, ?_⟩
      · rcases hend with h | ⟨item, hi, -⟩
        · exact absurd ((hspec.ended h).2 p hp) herr
        · exact ⟨item, hi⟩
      · omega
      · omega

/-- A disk that can write none of its 1000 sectors. A write of four sectors is completed in two
halves; the second one fails, and the worker stores it in a new mapping. -/
theorem completion_stores_tail :
    let E := Env.refusing fun c _ => c.lba < 1000
    let bio : Bio := ⟨true, 4, 2048, true⟩
    let cs : List EndCall := [⟨1024, 0, 4⟩, ⟨1024, -eio, 6⟩]
    ∃ s₁ s₂ bio' out, (scsiSwapInit E 1000).run World.blank = some (true, s₁) ∧
      (endCalls E (.disk 1000) cs bio).run s₁ = some ((bio', out), s₂) ∧
      EndsWell bio out (fun _ _ => 7) ∧ ∀ k < 4, Acknowledged bio cs k ∨ Rewritten bio out (fun _ _ => 7) k := by
  intro E bio cs
  have hrun : ((do
      let ok ← scsiSwapInit E 1000
      let r ← endCalls E (.disk 1000) cs bio
      let q ← swapBioWorkHandler E ⟨6, 1024, 6⟩ bio (fun _ _ => 7)
      return (ok, r.2, q.1) : SwapM (Bool × Outcome × ℤ)).run World.blank).map Prod.fst =
      some (true, .handed ⟨6, 1024, 6⟩, 0) := by decide +kernel
  obtain ⟨s', h⟩ := run_of_result hrun
  obtain ⟨ok, s₁, h1, h⟩ := run_bind_iff.1 h
  obtain ⟨⟨bio', out⟩, s₂, h2, h⟩ := run_bind_iff.1 h
  obtain ⟨⟨e, buf'⟩, s₃, h3, h⟩ := run_bind_iff.1 h
  obtain ⟨e4, rfl⟩ := run_pure_iff.1 h
  obtain ⟨rfl, e5⟩ := Prod.mk.inj e4
  obtain ⟨rfl, rfl⟩ := Prod.mk.inj e5
  have hend : EndsWell bio (.handed ⟨6, 1024, 6⟩) (fun _ _ => 7) := Or.inr ⟨_, rfl, E, s₂, buf', s', h3⟩
  refine ⟨s₁, s₂, bio', _, h1, h2, hend, fun k hk => ?_⟩
  refine (completion_stores_iff rfl (by decide) h2 hend).2 ?_ k (by show 512 * k < 2048; omega)
  have hp : pieces bio.size 0 cs = [⟨0, 1024, 0⟩, ⟨1024, 1024, -eio⟩] := by decide +kernel
  have hl : lastCall bio.size cs = (2, 1024) := by decide +kernel
  rw [hp, hl]
  simp

/-- **The first half is lost.** The first call fails, the second does not: the worker is given the
second half, stores it, and the bio is ended with 0. -/
theorem completion_loses_head :
    let E := Env.refusing fun c _ => c.lba < 1000
    let bio : Bio := ⟨true, 4, 2048, true⟩
    let cs : List EndCall := [⟨1024, -eio, 4⟩, ⟨1024, 0, 6⟩]
    ∃ s₁ s₂ bio' out, (scsiSwapInit E 1000).run World.blank = some (true, s₁) ∧
      (endCalls E (.disk 1000) cs bio).run s₁ = some ((bio', out), s₂) ∧
      EndsWell bio out (fun _ _ => 7) ∧ ¬ Acknowledged bio cs 0 ∧ ¬ Rewritten bio out (fun _ _ => 7) 0 := by
  intro E bio cs
  have hrun : ((do
      let ok ← scsiSwapInit E 1000
      let r ← endCalls E (.disk 1000) cs bio
      let q ← swapBioWorkHandler E ⟨6, 1024, 6⟩ bio (fun _ _ => 7)
      return (ok, r.2, q.1) : SwapM (Bool × Outcome × ℤ)).run World.blank).map Prod.fst =
      some (true, .handed ⟨6, 1024, 6⟩, 0) := by decide +kernel
  obtain ⟨s', h⟩ := run_of_result hrun
  obtain ⟨ok, s₁, h1, h⟩ := run_bind_iff.1 h
  obtain ⟨⟨bio', out⟩, s₂, h2, h⟩ := run_bind_iff.1 h
  obtain ⟨⟨e, buf'⟩, s₃, h3, h⟩ := run_bind_iff.1 h
  obtain ⟨e4, rfl⟩ := run_pure_iff.1 h
  obtain ⟨rfl, e5⟩ := Prod.mk.inj e4
  obtain ⟨rfl, rfl⟩ := Prod.mk.inj e5
  refine ⟨s₁, s₂, bio', _, h1, h2, Or.inr ⟨_, rfl, E, s₂, buf', s', h3⟩, ?_, ?_⟩
  · intro hack
    obtain ⟨p, hp, hzero, hhas⟩ := hack 0 (by decide) (by decide) (by decide)
    have hps : pieces bio.size 0 cs = [⟨0, 1024, -eio⟩, ⟨1024, 1024, 0⟩] := by decide +kernel
    rw [hps] at hp
    simp only [List.mem_cons, List.not_mem_nil, or_false] at hp
    rcases hp with rfl | rfl
    · exact absurd hzero (by decide)
    · exact absurd hhas.1 (by decide)
  · rintro ⟨item, hi, -, hcov⟩
    obtain rfl := Outcome.handed.inj hi
    exact absurd hcov (by decide)

end ScsiSwap
