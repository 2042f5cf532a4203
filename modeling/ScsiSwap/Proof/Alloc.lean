import ScsiSwap.Proof.Mapping
import ScsiSwap.Proof.Total

/-!
# The search for a spare block

`_swap_alloc_new_block` takes the first free block that can be written. The blocks it could not write stay marked,
up to sixteen of them; at the seventeenth it gives the device up.

* `probe E s k`: the block that is tried after `k` others, `Probing`: what is known by then;
* `AllocEnd`, `swapAllocNewBlock_end`: how the search ends;
* `swapAllocNewBlock_bits`: the bitmap after it;
* `Granted`, `swapAllocNewBlock_granted`: the block that is handed out;
* `alloc_searches_in_order`: the search from the caller's side.
-/

namespace ScsiSwap

open StateOption

variable {E : Env} {s s' : World}

/-! ## Spare blocks that are tried -/

/-- The block that `_swap_alloc_new_block`, called in state `s`, tries after `k` others, and the state in which
it does. -/
def probe (E : Env) (s : World) : ℕ → Option (World × ℕ)
  | 0 => (firstZeroBit s.core.head.bitmap).map fun i => (s, i)
  | k + 1 => (probe E s k).bind fun (u, i) =>
      match (swapCheckBlock E (u.core.sectorData + 128 * i)).run u with
      | some (false, u₁) =>
        let t := u₁.setBitmap (bitmapSet u₁.core.head.bitmap i)
        (firstZeroBit t.core.head.bitmap).map fun j => (t, j)
      | _ => none

/-- Memory and the write of zeros are what a block needs to be found good. -/
theorem swapCheckBlock_run (i : ℕ) : ∃ s', (swapCheckBlock E (s.core.sectorData + 128 * i)).run s = some
    (E.kmalloc s.tick && (E.write (s.tick + 1) ⟨(s.core.sectorData + 128 * i) % 2 ^ 32, 128, 5⟩
      fun _ => zeroSector).isOk, s') := by
  unfold swapCheckBlock
  rw [run_bind_of (show (kmalloc E).run s = some (E.kmalloc s.tick, { s with tick := s.tick + 1 }) from rfl)]
  cases E.kmalloc s.tick with
  | false => exact ⟨_, rfl⟩
  | true =>
    rw [if_pos rfl]
    exact ⟨_, hdWriteSector_run ..⟩

/-- The block `i` is not found good in state `u`. -/
def CheckFails (E : Env) (u : World) (i : ℕ) : Prop :=
  (E.kmalloc u.tick && (E.write (u.tick + 1) ⟨(u.core.sectorData + 128 * i) % 2 ^ 32, 128, 5⟩
    fun _ => zeroSector).isOk) = false

theorem probe_succ {k i : ℕ} {u : World} (h : probe E s k = some (u, i)) {t : World} {j : ℕ}
    (h' : probe E s (k + 1) = some (t, j)) : CheckFails E u i ∧
      ∃ u₁, (swapCheckBlock E (u.core.sectorData + 128 * i)).run u = some (false, u₁) ∧
        t = u₁.setBitmap (bitmapSet u₁.core.head.bitmap i) ∧ firstZeroBit t.core.head.bitmap = some j := by
  unfold probe at h'
  rw [h, Option.bind_some] at h'
  dsimp only at h'
  obtain ⟨u₁, hrun⟩ := swapCheckBlock_run (E := E) (s := u) i
  split at h'
  · rename_i u₂ hf
    obtain ⟨j', hj, he⟩ := Option.map_eq_some_iff.1 h'
    obtain ⟨rfl, rfl⟩ := Prod.mk.inj he
    exact ⟨(run_det hf hrun).1, u₂, hf, rfl, hj⟩
  · exact absurd h' (by simp)

theorem probe_le {k k' : ℕ} (hk : k' ≤ k) {x : World × ℕ} (h : probe E s k = some x) :
    ∃ y, probe E s k' = some y := by
  induction k generalizing x with
  | zero =>
    obtain rfl : k' = 0 := by omega
    exact ⟨x, h⟩
  | succ k ih =>
    rcases Nat.lt_or_ge k k' with hlt | hge
    · obtain rfl : k' = k + 1 := by omega
      exact ⟨x, h⟩
    · unfold probe at h
      obtain ⟨y, hy, -⟩ := Option.bind_eq_some_iff.1 h
      exact ih hge hy

/-- All blocks tried before were not found good. -/
theorem probe_before {k k' : ℕ} (hk : k' < k) {x : World × ℕ} (h : probe E s k = some x) {u : World} {i : ℕ}
    (h' : probe E s k' = some (u, i)) : CheckFails E u i := by
  obtain ⟨⟨t, j⟩, hy⟩ := probe_le (show k' + 1 ≤ k from hk) h
  exact (probe_succ h' hy).1

/-- What a probe finds: a free block, and all those marked that were tried before. -/
structure Probing (E : Env) (s : World) (k : ℕ) (u : World) (i : ℕ) : Prop where
  lt : i < 1024
  free : u.core.head.bitmap.getLsbD i = false
  data : u.core.sectorData = s.core.sectorData
  bits : ∀ j, u.core.head.bitmap.getLsbD j = true ↔
    s.core.head.bitmap.getLsbD j = true ∨ ∃ k' < k, ∃ t, probe E s k' = some (t, j)

theorem probing : ∀ {k : ℕ} {u : World} {i : ℕ}, probe E s k = some (u, i) → Probing E s k u i := by
  intro k
  induction k with
  | zero =>
    intro u i h
    obtain ⟨j, hj, he⟩ := Option.map_eq_some_iff.1 h
    obtain ⟨rfl, rfl⟩ := Prod.mk.inj he
    obtain ⟨h1, h2⟩ := firstZeroBit_some hj
    exact ⟨h1, h2, rfl, fun j => by simp⟩
  | succ k ih =>
    intro u i h
    obtain ⟨⟨t, l⟩, hp⟩ := probe_le (Nat.le_succ k) h
    obtain ⟨-, t₁, hrun, rfl, hfree⟩ := probe_succ hp h
    obtain ⟨h1, h2⟩ := firstZeroBit_some hfree
    have hdev := swapCheckBlock_dev hrun
    have hq := ih hp
    have hbit : t₁.core.head.bitmap = t.core.head.bitmap := hdev.bitmap
    refine ⟨h1, h2, (congrArg Geom.data hdev.geom).trans hq.data, fun j => ?_⟩
    show (bitmapSet t₁.core.head.bitmap l).getLsbD j = true ↔ _
    rw [hbit, bitmapSet_getLsbD _ _ _ hq.lt, Bool.or_eq_true, hq.bits, decide_eq_true_eq, or_assoc]
    refine or_congr_right ⟨?_, ?_⟩
    · rintro (⟨k', hk', hx⟩ | rfl)
      · exact ⟨k', by omega, hx⟩
      · exact ⟨k, by omega, t, hp⟩
    · rintro ⟨k', hk', x, hx⟩
      rcases Nat.lt_or_ge k' k with hlt | hge
      · exact Or.inl ⟨k', hlt, x, hx⟩
      · obtain rfl : k' = k := by omega
        rw [hp] at hx
        exact Or.inr (congrArg Prod.snd (Option.some.inj hx))

/-- A block that is tried was free from the start. -/
theorem Probing.was_free {k i : ℕ} {u : World} (h : Probing E s k u i) :
    s.core.head.bitmap.getLsbD i = false := by
  refine Bool.eq_false_iff.2 fun hs => ?_
  have hset := (h.bits i).2 (Or.inl hs)
  rw [h.free] at hset
  exact absurd hset (by simp)

/-- No block is tried twice. -/
theorem probe_unique {k k' i : ℕ} {u u' : World} (h : probe E s k = some (u, i))
    (h' : probe E s k' = some (u', i)) : k = k' ∧ u = u' := by
  have hlt : ∀ {k k' : ℕ} {u u' : World}, probe E s k = some (u, i) → probe E s k' = some (u', i) → ¬ k < k' := by
    intro k k' u u' h h' hk
    have hset := ((probing h').bits i).2 (Or.inr ⟨k, hk, u, h⟩)
    rw [(probing h').free] at hset
    exact absurd hset (by simp)
  obtain rfl : k = k' := by
    have h1 := hlt h h'
    have h2 := hlt h' h
    omega
  rw [h] at h'
  exact ⟨rfl, congrArg Prod.fst (Option.some.inj h')⟩

/-- The blocks that are marked because they were not found good. The seventeenth is not: the allocator gives
up. -/
def Marked (E : Env) (s : World) (j : ℕ) : Prop := ∃ k < 16, ∃ u, probe E s k = some (u, j) ∧ CheckFails E u j

theorem Marked.free {j : ℕ} (h : Marked E s j) : s.core.head.bitmap.getLsbD j = false := by
  obtain ⟨k, -, u, hu, -⟩ := h
  exact (probing hu).was_free

theorem marked_iff {n j : ℕ} (hn : n ≤ 16) (hfails : ∀ k < n, ∀ u i, probe E s k = some (u, i) → CheckFails E u i)
    (hstop : n = 16 ∨ ∀ u i, probe E s n = some (u, i) → ¬ CheckFails E u i) :
    Marked E s j ↔ ∃ k < n, ∃ t, probe E s k = some (t, j) := by
  constructor
  · rintro ⟨k, hk, u, hu, hf⟩
    rcases Nat.lt_or_ge k n with hlt | hge
    · exact ⟨k, hlt, u, hu⟩
    · exfalso
      have hstop := hstop.resolve_left (by omega)
      rcases Nat.lt_or_ge n k with hlt | hle
      · obtain ⟨⟨t, i⟩, ht⟩ := probe_le hlt.le hu
        exact hstop t i ht (probe_before hlt hu ht)
      · obtain rfl : k = n := by omega
        exact hstop u j hu hf
  · rintro ⟨k, hk, t, ht⟩
    exact ⟨k, by omega, t, ht, hfails k hk t j ht⟩

/-- The bitmap when a block is found good. -/
theorem bits_found {k i : ℕ} {u : World} (hk : k ≤ 16) (hp : probe E s k = some (u, i))
    (hok : ¬ CheckFails E u i) :
    (∀ j, (bitmapSet u.core.head.bitmap i).getLsbD j = true ↔
      s.core.head.bitmap.getLsbD j = true ∨ some i = some j ∨ Marked E s j) ∧ ∀ j, some i = some j →
      ¬ Marked E s j := by
  have hq := probing hp
  have hmark : ∀ j, Marked E s j ↔ ∃ k' < k, ∃ t, probe E s k' = some (t, j) := fun j => by
    refine marked_iff hk (fun k' hk' v l hv => probe_before hk' hp hv) (Or.inr fun v l hv => ?_)
    obtain ⟨rfl, rfl⟩ := Prod.mk.inj (Option.some.inj (hp.symm.trans hv))
    exact hok
  refine ⟨fun j => ?_, ?_⟩
  · rw [bitmapSet_getLsbD _ _ _ hq.lt, Bool.or_eq_true, hq.bits, decide_eq_true_eq, hmark,
      Option.some.injEq, or_assoc]
    exact or_congr_right or_comm
  · rintro j ⟨⟩ hm
    obtain ⟨k', hk', t, ht⟩ := (hmark _).1 hm
    exact absurd (probe_unique ht hp).1 (by omega)

/-! ## How the search ends -/

/-- Block `i` has taken the zeros, two calls of the device later. -/
def World.zeroed (u : World) (i : ℕ) : World :=
  let lba := (u.core.sectorData + 128 * i) % 2 ^ 32
  { u with tick := u.tick + 2, disk := fun x => if lba ≤ x ∧ x < lba + 128 then zeroSector else u.disk x }

/-- The same device and the same mappings. -/
structure SameContents (s t : World) : Prop where
  disk : s.disk = t.disk
  tick : s.tick = t.tick
  heap : s.heap = t.heap

theorem swapCheckBlock_zeroes {u u₁ : World} {i : ℕ}
    (h : (swapCheckBlock E (u.core.sectorData + 128 * i)).run u = some (true, u₁)) :
    SameContents u₁ (u.zeroed i) := by
  unfold swapCheckBlock at h
  rw [run_bind_of (show (kmalloc E).run u = some (E.kmalloc u.tick, { u with tick := u.tick + 1 }) from rfl)] at h
  cases hk : E.kmalloc u.tick with
  | false =>
    rw [hk, if_neg (by simp)] at h
    exact absurd (run_pure_iff.1 h).1 (by simp)
  | true =>
    rw [hk, if_pos rfl] at h
    unfold hdWriteSectorRetry at h
    rw [hdWriteSector_run] at h
    obtain ⟨hio, rfl⟩ := Prod.mk.inj (Option.some.inj h)
    refine ⟨funext fun x => ?_, rfl, rfl⟩
    dsimp only at hio ⊢
    unfold World.zeroed
    split
    · rename_i hx
      generalize E.write _ _ _ = io at hio
      cases io with
      | ok => exact (if_pos hx).symm
      | fail junk nc => exact absurd hio (by simp [IoResult.isOk])
    · rename_i hx
      exact (if_neg hx).symm

/-- What becomes of the last block tried, `i` after `k` others: the value returned, and the state then. -/
inductive AllocEnd (E : Env) (k : ℕ) (u : World) (i : ℕ) : Option ℕ → World → Prop
  /-- It is good. -/
  | found {s' : World} (good : ¬ CheckFails E u i) (bits : s'.core.head.bitmap = bitmapSet u.core.head.bitmap i)
      (zeroed : SameContents s' (u.zeroed i)) : AllocEnd E k u i (some i) s'
  /-- It is the seventeenth that is bad. -/
  | tired {s' : World} (last : k = 16) (bad : CheckFails E u i) (bits : s'.core.head.bitmap = u.core.head.bitmap)
      (dead : u.core.deviceDead < s'.core.deviceDead) : AllocEnd E k u i none s'
  /-- It is bad, and there is no other. -/
  | full {s' : World} (lt : k < 16) (bad : CheckFails E u i)
      (bits : s'.core.head.bitmap = bitmapSet u.core.head.bitmap i)
      (empty : firstZeroBit s'.core.head.bitmap = none) : AllocEnd E k u i none s'

theorem swapAllocLoop_end : ∀ {left k : ℕ} {u : World} {i : ℕ} {a : Option ℕ} {s' : World}, k + left = 16 →
    probe E s k = some (u, i) → (swapAllocLoop E left i).run u = some (a, s') →
    ∃ k' ≤ 16, ∃ u' i', probe E s k' = some (u', i') ∧ AllocEnd E k' u' i' a s' := by
  intro left
  induction left with
  | zero =>
    intro k u i a s' hk hp h
    unfold swapAllocLoop at h
    rw [run_get_bind] at h
    obtain ⟨ok, u₁, h1, h2⟩ := run_bind_iff.1 h
    have hdev := swapCheckBlock_dev h1
    have hbit : u₁.core.head.bitmap = u.core.head.bitmap := hdev.bitmap
    obtain ⟨u₂, hrun⟩ := swapCheckBlock_run (E := E) (s := u) i
    have hok := (run_det hrun h1).1
    refine ⟨k, by omega, u, i, hp, ?_⟩
    cases ok with
    | true =>
      have hzero := swapCheckBlock_zeroes h1
      rw [if_pos rfl, run_modify_bind, hbit] at h2
      obtain ⟨rfl, rfl⟩ := run_pure_iff.1 h2
      exact .found (fun hf => absurd (hok.trans hf) (by simp)) rfl ⟨hzero.disk, hzero.tick, hzero.heap⟩
    | false =>
      rw [if_neg (by simp)] at h2
      obtain ⟨v, u₂, h3, h4⟩ := run_bind_iff.1 h2
      obtain ⟨rfl, rfl⟩ := run_pure_iff.1 h4
      obtain ⟨-, rfl⟩ := run_modify_iff.1 h3
      exact .tired (by omega) hok.symm hbit (Nat.lt_succ_of_le hdev.dead)
  | succ left ih =>
    intro k u i a s' hk hp h
    unfold swapAllocLoop at h
    rw [run_get_bind] at h
    obtain ⟨ok, u₁, h1, h2⟩ := run_bind_iff.1 h
    have hbit : u₁.core.head.bitmap = u.core.head.bitmap := (swapCheckBlock_dev h1).bitmap
    obtain ⟨u₂, hrun⟩ := swapCheckBlock_run (E := E) (s := u) i
    have hok := (run_det hrun h1).1
    cases ok with
    | true =>
      have hzero := swapCheckBlock_zeroes h1
      rw [if_pos rfl, run_modify_bind, hbit] at h2
      obtain ⟨rfl, rfl⟩ := run_pure_iff.1 h2
      exact ⟨k, by omega, u, i, hp, .found (fun hf => absurd (hok.trans hf) (by simp)) rfl
        ⟨hzero.disk, hzero.tick, hzero.heap⟩⟩
    | false =>
      rw [if_neg (by simp), run_modify_bind, run_get_bind] at h2
      split at h2
      · rename_i hnone
        obtain ⟨rfl, rfl⟩ := run_pure_iff.1 h2
        exact ⟨k, by omega, u, i, hp, .full (by omega) hok.symm (congrArg (bitmapSet · i) hbit) hnone⟩
      · rename_i j hj
        -- this is how `probe` goes on
        have hnext : probe E s (k + 1) = some (u₁.setBitmap (bitmapSet u₁.core.head.bitmap i), j) := by
          conv_lhs => unfold probe
          rw [hp, Option.bind_some]
          dsimp only
          rw [h1]
          exact congrArg (Option.map _) hj
        exact ih (by omega) hnext h2

theorem swapAllocNewBlock_end {a : Option ℕ} (h : (swapAllocNewBlock E).run s = some (a, s')) :
    (firstZeroBit s.core.head.bitmap = none ∧ a = none ∧ s' = s) ∨
      ∃ k ≤ 16, ∃ u i, probe E s k = some (u, i) ∧ AllocEnd E k u i a s' := by
  unfold swapAllocNewBlock at h
  rw [run_get_bind] at h
  split at h
  · rename_i hnone
    obtain ⟨rfl, rfl⟩ := run_pure_iff.1 h
    exact Or.inl ⟨hnone, rfl, rfl⟩
  · rename_i i hi
    refine Or.inr (swapAllocLoop_end (k := 0) (by omega) ?_ h)
    unfold probe
    rw [hi]
    rfl

/-- **The bitmap after an allocation**: new in it are the blocks that were marked, and the one handed out. -/
theorem swapAllocNewBlock_bits {a : Option ℕ} (h : (swapAllocNewBlock E).run s = some (a, s')) :
    (∀ j, s'.core.head.bitmap.getLsbD j = true ↔
      s.core.head.bitmap.getLsbD j = true ∨ a = some j ∨ Marked E s j) ∧ ∀ j, a = some j → ¬ Marked E s j := by
  rcases swapAllocNewBlock_end h with ⟨hnone, rfl, rfl⟩ | ⟨k, hk, u, i, hp, hend⟩
  · have hno : ∀ j, ¬ Marked E s' j := by
      rintro j ⟨k, -, u, hu, -⟩
      obtain ⟨y, hy⟩ := probe_le (Nat.zero_le k) hu
      unfold probe at hy
      rw [hnone] at hy
      exact absurd hy (by simp)
    exact ⟨fun j => by simp [hno j], by simp⟩
  have hq := probing hp
  cases hend with
  | found good bits zeroed =>
    rw [bits]
    exact bits_found hk hp good
  | tired last bad bits dead =>
    subst last
    have hmark : ∀ j, Marked E s j ↔ ∃ k < 16, ∃ t, probe E s k = some (t, j) := fun j =>
      marked_iff le_rfl (fun k hk u i hu => probe_before hk hp hu) (Or.inl rfl)
    refine ⟨fun j => ?_, by simp⟩
    rw [bits, hq.bits, hmark]
    simp
  | full lt bad bits empty =>
    have hmark : ∀ j, Marked E s j ↔ ∃ k' < k + 1, ∃ t, probe E s k' = some (t, j) := fun j => by
      refine marked_iff (by omega) (fun k' hk' v l hv => ?_) (Or.inr fun v l hv => ?_)
      · rcases Nat.lt_or_ge k' k with hlt | hge
        · exact probe_before hlt hp hv
        · obtain rfl : k' = k := by omega
          obtain ⟨rfl, rfl⟩ := Prod.mk.inj (Option.some.inj (hp.symm.trans hv))
          exact bad
      · obtain ⟨-, u₁, hrun, rfl, hfree⟩ := probe_succ hp hv
        have hbit : u₁.core.head.bitmap = u.core.head.bitmap := (swapCheckBlock_dev hrun).bitmap
        rw [bits, ← hbit] at empty
        exact absurd (empty.symm.trans hfree) (by simp)
    refine ⟨fun j => ?_, by simp⟩
    rw [bits, bitmapSet_getLsbD _ _ _ hq.lt, Bool.or_eq_true, hq.bits, decide_eq_true_eq, hmark]
    constructor
    · rintro ((hs | ⟨k', hk', hx⟩) | rfl)
      · exact Or.inl hs
      · exact Or.inr (Or.inr ⟨k', by omega, hx⟩)
      · exact Or.inr (Or.inr ⟨k, by omega, u, hp⟩)
    · rintro (hs | ha | ⟨k', hk', t, ht⟩)
      · exact Or.inl (Or.inl hs)
      · exact absurd ha (by simp)
      · rcases Nat.lt_or_ge k' k with hlt | hge
        · exact Or.inl (Or.inr ⟨k', hlt, t, ht⟩)
        · obtain rfl : k' = k := by omega
          exact Or.inr (congrArg Prod.snd (Option.some.inj (hp.symm.trans ht)))

/-- `_swap_alloc_new_block`, called in state `s`, hands out block `i`, the first it tries that takes the zeros.
`t` has what is on the disk and in memory then. -/
def Granted (E : Env) (s : World) (i : ℕ) (t : World) : Prop :=
  ∃ k ≤ 16, ∃ u, probe E s k = some (u, i) ∧ ¬ CheckFails E u i ∧ t = u.zeroed i

theorem Granted.unique {i i' : ℕ} {t t' : World} (h : Granted E s i t) (h' : Granted E s i' t') :
    i = i' ∧ t = t' := by
  obtain ⟨k, -, u, hu, hok, rfl⟩ := h
  obtain ⟨k', -, u', hu', hok', rfl⟩ := h'
  obtain rfl : k = k' := by
    rcases Nat.lt_trichotomy k k' with hlt | heq | hgt
    · exact absurd (probe_before hlt hu' hu) hok
    · exact heq
    · exact absurd (probe_before hgt hu hu') hok'
  obtain ⟨rfl, rfl⟩ := Prod.mk.inj (Option.some.inj (hu.symm.trans hu'))
  exact ⟨rfl, rfl⟩

/-- **The block handed out.** -/
theorem swapAllocNewBlock_granted {i : ℕ} (h : (swapAllocNewBlock E).run s = some (some i, s')) :
    ∃ t, Granted E s i t ∧ SameContents s' t := by
  rcases swapAllocNewBlock_end h with ⟨-, ha, -⟩ | ⟨k, hk, u, i', hp, hend⟩
  · exact absurd ha (by simp)
  cases hend with
  | found good bits zeroed => exact ⟨_, ⟨k, hk, u, hp, good, rfl⟩, zeroed⟩

theorem swapAllocNewBlock_not_granted (h : (swapAllocNewBlock E).run s = some (none, s')) {i : ℕ} {t : World} :
    ¬ Granted E s i t := by
  rintro ⟨k, hk, u, hu, hok, -⟩
  rcases swapAllocNewBlock_end h with ⟨hnone, -, -⟩ | ⟨k', hk', u', i', hp, hend⟩
  · obtain ⟨y, hy⟩ := probe_le (Nat.zero_le k) hu
    unfold probe at hy
    rw [hnone] at hy
    exact absurd hy (by simp)
  -- the last block tried is bad, and so are all before it
  have hbad : CheckFails E u' i' := by cases hend <;> assumption
  rcases Nat.lt_trichotomy k k' with hlt | rfl | hgt
  · exact hok (probe_before hlt hp hu)
  · obtain ⟨rfl, rfl⟩ := Prod.mk.inj (Option.some.inj (hu.symm.trans hp))
    exact hok hbad
  · cases hend with
    | tired last => omega
    | full lt bad bits empty =>
      obtain ⟨⟨v, j⟩, hv⟩ := probe_le hgt hu
      obtain ⟨-, u₁, hrun, rfl, hfree⟩ := probe_succ hp hv
      have hbit : u₁.core.head.bitmap = u'.core.head.bitmap := (swapCheckBlock_dev hrun).bitmap
      rw [bits, ← hbit] at empty
      exact absurd (empty.symm.trans hfree) (by simp)

/-! ## The order of the search -/

theorem firstZeroBit_below {b : BitVec 1024} {i j : ℕ} (h : firstZeroBit b = some i) (hj : j < i) :
    b.getLsbD j = true := by
  have hi := (firstZeroBit_some h).1
  unfold firstZeroBit at h
  rw [List.find?_range_eq_some] at h
  simpa using h.2.2 j hj

theorem firstZeroBit_none {b : BitVec 1024} {j : ℕ} (h : firstZeroBit b = none) (hj : j < 1024) :
    b.getLsbD j = true := by
  unfold firstZeroBit at h
  rw [List.find?_range_eq_none] at h
  simpa using h j hj

theorem probe_first {k i : ℕ} {u : World} (h : probe E s k = some (u, i)) :
    firstZeroBit u.core.head.bitmap = some i := by
  cases k with
  | zero =>
    obtain ⟨j, hj, he⟩ := Option.map_eq_some_iff.1 h
    obtain ⟨rfl, rfl⟩ := Prod.mk.inj he
    exact hj
  | succ k =>
    obtain ⟨⟨t, l⟩, hp⟩ := probe_le (Nat.le_succ k) h
    obtain ⟨-, t₁, -, -, hfree⟩ := probe_succ hp h
    exact hfree

/-- A free block below the one tried was tried before it. -/
theorem probe_below {k i j : ℕ} {u : World} (h : probe E s k = some (u, i)) (hj : j < i)
    (hfree : s.core.head.bitmap.getLsbD j = false) : ∃ k' < k, ∃ t, probe E s k' = some (t, j) := by
  rcases ((probing h).bits j).1 (firstZeroBit_below (probe_first h) hj) with hs | hk
  · rw [hfree] at hs
    exact absurd hs (by simp)
  · exact hk

/-- The blocks are tried in ascending order. -/
theorem probe_lt {k k' i j : ℕ} {u t : World} (hk : k' < k) (h' : probe E s k' = some (t, j))
    (h : probe E s k = some (u, i)) : j < i := by
  have hfree := (probing h).was_free
  rcases Nat.lt_trichotomy j i with hlt | rfl | hgt
  · exact hlt
  · exact absurd (probe_unique h' h).1 (by omega)
  · obtain ⟨l, hl, v, hv⟩ := probe_below h' hgt hfree
    exact absurd (probe_unique hv h).1 (by omega)

theorem probe_dead : ∀ {k : ℕ} {u : World} {i : ℕ}, probe E s k = some (u, i) →
    s.core.deviceDead ≤ u.core.deviceDead := by
  intro k
  induction k with
  | zero =>
    intro u i h
    obtain ⟨j, -, he⟩ := Option.map_eq_some_iff.1 h
    obtain ⟨rfl, -⟩ := Prod.mk.inj he
    exact le_rfl
  | succ k ih =>
    intro u i h
    obtain ⟨⟨t, l⟩, hp⟩ := probe_le (Nat.le_succ k) h
    obtain ⟨-, t₁, hrun, rfl, -⟩ := probe_succ hp h
    exact (ih hp).trans (swapCheckBlock_dev hrun).dead

/-- **The search for a spare block.** It always ends and never clears a bit. A block that is returned was free,
was written with zeros, and is marked; every free block before it was tried in vain and is marked; nothing
after it has changed. If there is none, all bits are set, or seventeen blocks were tried in vain, the first
sixteen of them are new in the bitmap, and the device counts as dead. -/
theorem alloc_searches_in_order (E : Env) (s : World) :
    ∃ a s', (swapAllocNewBlock E).run s = some (a, s') ∧
      (∀ j, s.core.head.bitmap.getLsbD j = true → s'.core.head.bitmap.getLsbD j = true) ∧
      (∀ i, a = some i → i < 1024 ∧ s.core.head.bitmap.getLsbD i = false ∧ s'.core.head.bitmap.getLsbD i = true ∧
        (∃ k ≤ 16, ∃ u, probe E s k = some (u, i) ∧ ¬ CheckFails E u i) ∧
        (∀ j < i, s.core.head.bitmap.getLsbD j = false →
          (∃ k < 16, ∃ u, probe E s k = some (u, j) ∧ CheckFails E u j) ∧ s'.core.head.bitmap.getLsbD j = true) ∧
        ∀ j, i < j → s'.core.head.bitmap.getLsbD j = s.core.head.bitmap.getLsbD j) ∧
      (a = none → (∀ j < 1024, s'.core.head.bitmap.getLsbD j = true) ∨
        (∀ k ≤ 16, ∃ u j, probe E s k = some (u, j) ∧ CheckFails E u j) ∧ s.core.deviceDead < s'.core.deviceDead ∧
          ∀ j, s.core.head.bitmap.getLsbD j = false ∧ s'.core.head.bitmap.getLsbD j = true ↔
            ∃ k < 16, ∃ u, probe E s k = some (u, j)) := by
  obtain ⟨a, s', hrun⟩ := (swapAllocNewBlock_total (E := E)).run s
  obtain ⟨hbits, -⟩ := swapAllocNewBlock_bits hrun
  refine ⟨a, s', hrun, fun j hj => (hbits j).2 (Or.inl hj), ?_, ?_⟩
  · rintro i rfl
    rcases swapAllocNewBlock_end hrun with ⟨-, ha, -⟩ | ⟨k, hk, u, i', hp, hend⟩
    · exact absurd ha (by simp)
    cases hend with
    | found good bits zeroed =>
      have hq := probing hp
      refine ⟨hq.lt, hq.was_free, (hbits i).2 (Or.inr (Or.inl rfl)), ⟨k, hk, u, hp, good⟩,
        fun j hj hs => ?_, fun j hj => ?_⟩
      · obtain ⟨k', hk', t, ht⟩ := probe_below hp hj hs
        have hm : Marked E s j := ⟨k', by omega, t, ht, probe_before hk' hp ht⟩
        exact ⟨hm, (hbits j).2 (Or.inr (Or.inr hm))⟩
      · -- a marked block was tried before, so it lies below
        refine Bool.eq_iff_iff.2 ⟨fun h => ?_, fun h => (hbits j).2 (Or.inl h)⟩
        rcases (hbits j).1 h with hs | he | ⟨k', -, t, ht, hf⟩
        · exact hs
        · exact absurd (Option.some.inj he) (by omega)
        · exfalso
          rcases Nat.lt_or_ge k' k with hlt | hge
          · exact absurd (probe_lt hlt ht hp) (by omega)
          · rcases Nat.lt_or_ge k k' with hlt | hle
            · exact good (probe_before hlt ht hp)
            · obtain rfl : k' = k := by omega
              obtain ⟨rfl, rfl⟩ := Prod.mk.inj (Option.some.inj (hp.symm.trans ht))
              exact good hf
  · rintro rfl
    rcases swapAllocNewBlock_end hrun with ⟨hnone, -, rfl⟩ | ⟨k, hk, u, i, hp, hend⟩
    · exact Or.inl fun j hj => firstZeroBit_none hnone hj
    cases hend with
    | full lt bad bits empty => exact Or.inl fun j hj => firstZeroBit_none empty hj
    | tired last bad bits dead =>
      subst last
      have hall : ∀ k ≤ 16, ∃ t j, probe E s k = some (t, j) ∧ CheckFails E t j := by
        intro k hk
        obtain ⟨⟨t, j⟩, ht⟩ := probe_le hk hp
        rcases Nat.lt_or_ge k 16 with hlt | hge
        · exact ⟨t, j, ht, probe_before hlt hp ht⟩
        · obtain rfl : k = 16 := by omega
          exact ⟨u, i, hp, bad⟩
      refine Or.inr ⟨hall, (probe_dead hp).trans_lt dead, fun j => ?_⟩
      constructor
      · rintro ⟨hs, hs'⟩
        rcases (hbits j).1 hs' with h | h | ⟨k, hk, t, ht, -⟩
        · rw [hs] at h
          exact absurd h (by simp)
        · exact absurd h (by simp)
        · exact ⟨k, hk, t, ht⟩
      · rintro ⟨k, hk, t, ht⟩
        have hm : Marked E s j := ⟨k, hk, t, ht, probe_before hk hp ht⟩
        exact ⟨hm.free, (hbits j).2 (Or.inr (Or.inr hm))⟩

end ScsiSwap
