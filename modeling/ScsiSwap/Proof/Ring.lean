import ScsiSwap.Proof.Device

/-!
# The ring as a queue

`ring.h` keeps the place for the next item and the number of items; where the oldest one is, it computes.

* `Cspring.Pushed c n`: the ring after `n` items, `Pushed.push` and `Pushed.peek`: the next one, and what can
  be peeked;
* `Cspring.Holds c xs`: the ring after the items `xs`, `pushAll_holds`: it is what pushing them makes;
* `ring_refines_queue`: so it shows the last items, the oldest first, as long as its size in bytes is an `int`.
-/

namespace ScsiSwap

open StateOption

namespace Cspring

variable {α : Type} {r r' : Cspring α} {c n : ℕ}

/-! ## Counting -/

/-- A ring of log items whose size in bytes is an `int`. -/
structure Sized (c : ℕ) (r : Cspring α) : Prop where
  cap : r.itemCap = c
  size : r.itemSize = 32
  pos : 0 < c
  fits : c * 32 < 2 ^ 31

/-- `n` items have been pushed on an empty ring. -/
structure Pushed (c n : ℕ) (r : Cspring α) : Prop extends r.Sized c where
  num : r.itemNum = min n c
  next : r.itemNext = (n % c : ℕ)

theorem Sized.inBuffer_iff (h : r.Sized c) {i : ℤ} : r.inBuffer i = true ↔ 0 ≤ i ∧ i < c := by
  have hfits := h.fits
  have hsize : r.size = c * 32 := by
    unfold Cspring.size s32
    rw [h.cap, h.size]
    omega
  unfold inBuffer
  rw [hsize, h.cap, h.size, decide_eq_true_eq]
  omega

/-- A push on a ring with room for at least one item. -/
theorem update_of_pos {r : Cspring α} (hcap : 0 < r.itemCap) (hnum : 0 < r.itemNum) :
    r.update.itemNum = min r.itemNum r.itemCap ∧
      r.update.itemNext = (if r.itemCap ≤ r.itemNext then 0 else r.itemNext) ∧ r.update.buffer = r.buffer := by
  unfold update
  dsimp only
  by_cases h1 : r.itemNum > r.itemCap
  · rw [if_pos h1]
    dsimp only
    by_cases h2 : r.itemNext ≥ r.itemCap
    · rw [if_pos h2, if_neg (by dsimp only; omega)]
      exact ⟨(min_eq_right h1.le).symm, (if_pos h2).symm, rfl⟩
    · rw [if_neg h2, if_neg (by dsimp only; omega)]
      exact ⟨(min_eq_right h1.le).symm, (if_neg h2).symm, rfl⟩
  · rw [if_neg h1]
    have hmin : min r.itemNum r.itemCap = r.itemNum := min_eq_left (not_lt.1 h1)
    by_cases h2 : r.itemNext ≥ r.itemCap
    · rw [if_pos h2, if_neg (by dsimp only; omega)]
      exact ⟨hmin.symm, (if_pos h2).symm, rfl⟩
    · rw [if_neg h2, if_neg (by omega)]
      exact ⟨hmin.symm, (if_neg h2).symm, rfl⟩

@[simp] theorem update_itemSize (r : Cspring α) : r.update.itemSize = r.itemSize := by
  unfold update
  dsimp only
  split_ifs <;> rfl

/-- The place after the last one is the first. -/
theorem succ_mod (hcap : 0 < c) (n : ℕ) : (n + 1) % c = if c ≤ n % c + 1 then 0 else n % c + 1 := by
  have hlt := Nat.mod_lt n hcap
  rw [← Nat.mod_add_mod]
  split
  · rw [show n % c + 1 = c by omega, Nat.mod_self]
  · exact Nat.mod_eq_of_lt (by omega)

/-- A push, as long as the numbers are in range. -/
theorem Sized.push (h : r.Sized c) (hnext : 0 ≤ r.itemNext ∧ r.itemNext < c)
    (hnum : 0 ≤ r.itemNum ∧ r.itemNum < 2 ^ 31 - 1)
    (x : α) : ∃ r', r.push x = some (r.itemNext.toNat, r') ∧ r'.Sized c ∧ r'.itemNum = min (r.itemNum + 1) c ∧
      r'.itemNext = (if (c : ℤ) ≤ r.itemNext + 1 then 0 else r.itemNext + 1) ∧
      r'.buffer = Function.update r.buffer r.itemNext.toNat x := by
  have hpos := h.pos
  have hfits := h.fits
  obtain ⟨h1, h2, h3⟩ := update_of_pos (r := { r with
    buffer := Function.update r.buffer r.itemNext.toNat x, itemNext := r.itemNext + 1, itemNum := r.itemNum + 1 })
    (by dsimp only; rw [h.cap]; omega) (by dsimp only; omega)
  dsimp only at h1 h2 h3
  refine ⟨Cspring.update { r with
    buffer := Function.update r.buffer r.itemNext.toNat x, itemNext := r.itemNext + 1, itemNum := r.itemNum + 1 },
    ?_, ⟨?_, ?_, hpos, hfits⟩, ?_, ?_, h3⟩
  · unfold Cspring.push
    rw [if_pos (h.inBuffer_iff.2 hnext), show s32 (r.itemNext + 1) = r.itemNext + 1 by unfold s32; omega,
      show s32 (r.itemNum + 1) = r.itemNum + 1 by unfold s32; omega]
  · rw [update_itemCap]
    exact h.cap
  · rw [update_itemSize]
    exact h.size
  · rw [h1, h.cap]
  · rw [h2, h.cap]

/-- **The next item** goes to the next slot. -/
theorem Pushed.push (h : r.Pushed c n) (x : α) :
    ∃ r', r.push x = some (n % c, r') ∧ r'.Pushed c (n + 1) ∧ r'.buffer = Function.update r.buffer (n % c) x := by
  have hpos := h.pos
  have hfits := h.fits
  have hlt := Nat.mod_lt n hpos
  have hnum := h.num
  have hnext := h.next
  obtain ⟨r', hp, hs, h1, h2, h3⟩ := h.toSized.push (by omega) (by omega) x
  rw [hnext, Int.toNat_natCast] at hp h3
  refine ⟨r', hp, ⟨hs, ?_, ?_⟩, h3⟩
  · rw [h1, hnum]
    omega
  · rw [h2, hnext, succ_mod hpos]
    split <;> split <;> omega

/-- The slot of the oldest item. -/
theorem Pushed.popIndex (h : r.Pushed c n) : r.popIndex = (((n - min n c) % c : ℕ) : ℤ) := by
  have hpos := h.pos
  have hfits := h.fits
  have hlt := Nat.mod_lt n hpos
  unfold Cspring.popIndex
  rw [h.num, h.next, h.cap]
  rcases Nat.lt_or_ge n c with hn | hn
  · -- not full: the first item is in the first slot
    rw [Nat.mod_eq_of_lt hn, min_eq_left hn.le, Nat.sub_self, Nat.zero_mod,
      show s32 ((n : ℤ) - n) = 0 by simp [s32],
      show s32 (0 + (c : ℤ)) = c by unfold s32; omega, Int.tmod_self]
    rfl
  · -- full: the next item takes the place of the oldest one
    rw [min_eq_right hn, ← Nat.mod_eq_sub_mod hn,
      show s32 (((n % c : ℕ) : ℤ) - c) = ((n % c : ℕ) : ℤ) - c by unfold s32; omega,
      show s32 (((n % c : ℕ) : ℤ) - c + c) = ((n % c : ℕ) : ℤ) by unfold s32; omega]
    exact Int.tmod_eq_of_lt (by omega) (by omega)

/-- **What can be peeked**: item `i` of those that are left. -/
theorem Pushed.peek (h : r.Pushed c n) {i : ℕ} (hi : i < min n c) :
    r.peek i = some (r.buffer ((n - min n c + i) % c)) := by
  have hpos := h.pos
  have hfits := h.fits
  have hlt := Nat.mod_lt (n - min n c) hpos
  have hindex : (s32 (r.popIndex + i)).tmod r.itemCap = (((n - min n c + i) % c : ℕ) : ℤ) := by
    rw [h.popIndex, h.cap,
      show s32 ((((n - min n c) % c : ℕ) : ℤ) + i) = (((n - min n c) % c + i : ℕ) : ℤ) by unfold s32; omega,
      ← Int.ofNat_tmod, Nat.mod_add_mod]
  unfold Cspring.peek
  dsimp only
  have hmod := Nat.mod_lt (n - min n c + i) hpos
  rw [hindex, if_pos (h.inBuffer_iff.2 (by omega)), Int.toNat_natCast]

/-! ## Contents -/

/-- What can be peeked, the oldest first. -/
def items (r : Cspring α) : List (Option α) := (List.range r.itemNum.toNat).map fun i : ℕ => r.peek i

/-- The items `xs` have been pushed on an empty ring; the last ones are still there. -/
structure Holds (c : ℕ) (xs : List α) (r : Cspring α) : Prop extends r.Pushed c xs.length where
  slots : ∀ j, xs.length ≤ j + c → ∀ x, xs[j]? = some x → r.buffer (j % c) = x

/-- Pushing items one after another; `none` if one does not go into the buffer. -/
def pushAll (xs : List α) (r : Cspring α) : Option (Cspring α) :=
  xs.foldlM (fun r x => (r.push x).map Prod.snd) r

theorem Holds.push {xs : List α} (h : r.Holds c xs) (x : α) :
    ∃ r', r.push x = some (xs.length % c, r') ∧ r'.Holds c (xs ++ [x]) := by
  obtain ⟨r', hp, hr', hbuf⟩ := h.toPushed.push x
  refine ⟨r', hp, by rw [List.length_append]; exact hr', fun j hj y hy => ?_⟩
  rw [List.length_append, List.length_singleton] at hj
  rw [hbuf]
  rcases Nat.lt_or_ge j xs.length with hlt | hge
  · -- the older items that are left have other places: there are less than `c` of them
    rw [List.getElem?_append_left hlt] at hy
    rw [Function.update_of_ne, h.slots j (by omega) y hy]
    intro he
    have hmod : (xs.length - j) % c = 0 := Nat.sub_mod_eq_zero_of_mod_eq he.symm
    rw [Nat.mod_eq_of_lt (by omega)] at hmod
    omega
  · obtain rfl : j = xs.length := by
      have := (List.getElem?_eq_some_iff.1 hy).1
      simp at this
      omega
    rw [Function.update_self]
    simpa using hy

theorem Holds.pushAll {ys : List α} : ∀ {xs : List α} {r : Cspring α}, r.Holds c xs →
    ∃ r', r.pushAll ys = some r' ∧ r'.Holds c (xs ++ ys) := by
  induction ys with
  | nil =>
    intro xs r h
    exact ⟨r, rfl, by rw [List.append_nil]; exact h⟩
  | cons y ys ih =>
    intro xs r h
    obtain ⟨r₁, hp, h₁⟩ := h.push y
    obtain ⟨r', hr', h'⟩ := ih h₁
    refine ⟨r', ?_, by rw [List.append_assoc] at h'; exact h'⟩
    unfold Cspring.pushAll at hr' ⊢
    rw [List.foldlM_cons, hp]
    exact hr'

theorem create_holds {c : ℕ} (hpos : 0 < c) (hfits : c * 32 < 2 ^ 31) (stale : ℕ → α) :
    (create 32 c stale).Holds c [] :=
  ⟨⟨⟨rfl, rfl, hpos,
    hfits⟩, by rw [List.length_nil, Nat.zero_min]; rfl, by rw [List.length_nil, Nat.zero_mod]; rfl⟩,
    fun j _ x hx => by simp at hx⟩

/-- What can be peeked is what was pushed. -/
theorem Holds.peek {xs : List α} (h : r.Holds c xs) {i : ℕ} (hi : i < min xs.length c) :
    ∃ x, xs[xs.length - min xs.length c + i]? = some x ∧ r.peek i = some x := by
  have hlt : xs.length - min xs.length c + i < xs.length := by omega
  have hx := List.getElem?_eq_getElem hlt
  exact ⟨_, hx, by rw [h.toPushed.peek hi, h.slots _ (by omega) _ hx]⟩

theorem Holds.items {xs : List α} (h : r.Holds c xs) : r.items = (xs.drop (xs.length - c)).map some := by
  have hnum : r.itemNum.toNat = min xs.length c := by rw [h.num, Int.toNat_natCast]
  refine List.ext_getElem? fun i => ?_
  unfold Cspring.items
  rw [hnum, List.getElem?_map, List.getElem?_map, List.getElem?_drop]
  rcases Nat.lt_or_ge i (min xs.length c) with hi | hi
  · obtain ⟨x, hx, hp⟩ := h.peek hi
    rw [List.getElem?_range hi, Option.map_some, hp,
      show xs.length - c + i = xs.length - min xs.length c + i by omega, hx]
    rfl
  · rw [List.getElem?_eq_none (by rw [List.length_range]; exact hi), List.getElem?_eq_none (by omega)]
    rfl

end Cspring

/-! ## The log's view of it -/

variable {r : Cspring LogItem} {xs : List LogItem} {c : ℕ} {s : World}

theorem scsiSwapLogPeek_null {i : ℤ} (h : ¬ (0 ≤ i ∧ i < r.itemNum)) :
    (scsiSwapLogPeek r i).run s = some (none, s) := by
  unfold scsiSwapLogPeek
  rw [if_pos (by omega)]
  rfl

theorem scsiSwapLogPeek_some {i : ℤ} {x : LogItem} (h0 : 0 ≤ i) (h1 : i < r.itemNum) (hx : r.peek i = some x) :
    (scsiSwapLogPeek r i).run s = some (some x, s) := by
  unfold scsiSwapLogPeek
  rw [if_neg (by omega), hx]
  rfl

theorem scsiSwapLogLast_holds (h : r.Holds c xs) : (scsiSwapLogLast r).run s = some (xs.getLast?, s) := by
  have hpos := h.pos
  unfold scsiSwapLogLast
  rw [h.num]
  by_cases hn : xs.length = 0
  · rw [if_pos (by omega), List.length_eq_zero_iff.1 hn]
    rfl
  · obtain ⟨x, hx, hp⟩ := h.peek (i := min xs.length c - 1) (by omega)
    have hlast : xs.getLast? = some x := by
      rw [← hx, List.getLast?_eq_getElem?]
      congr 1
      omega
    rw [if_neg (by omega), hlast]
    refine scsiSwapLogPeek_some (by omega) (by rw [h.num]; omega) ?_
    rw [show ((min xs.length c : ℕ) : ℤ) - 1 = ((min xs.length c - 1 : ℕ) : ℤ) by omega]
    exact hp

/-- **The ring is a bounded queue**, for every capacity whose size in bytes is an `int`: after any items, it
has the last ones, as many as fit, the oldest first. -/
theorem ring_refines_queue (cap : ℤ) (hpos : 1 ≤ cap) (hfits : cap * 32 < 2 ^ 31) (stale : ℕ → LogItem)
    (xs : List LogItem) :
    ∃ r, (Cspring.create 32 cap stale).pushAll xs = some r ∧ r.itemNum = min (xs.length : ℤ) cap ∧
      0 ≤ r.itemNext ∧ r.itemNext < cap ∧
      (∀ i : ℤ, 0 ≤ i → i < r.itemNum → ∃ x, xs[xs.length - r.itemNum.toNat + i.toNat]? = some x ∧
        ∀ s, (scsiSwapLogPeek r i).run s = some (some x, s)) ∧
      (∀ i : ℤ, ¬ (0 ≤ i ∧ i < r.itemNum) → ∀ s, (scsiSwapLogPeek r i).run s = some (none, s)) ∧
      ∀ s, (scsiSwapLogLast r).run s = some (xs.getLast?, s) := by
  obtain ⟨c, rfl⟩ := Int.eq_ofNat_of_zero_le (show 0 ≤ cap by omega)
  have hempty : (Cspring.create 32 c stale).Holds c [] := Cspring.create_holds (by omega) (by omega) stale
  obtain ⟨r, hr, h⟩ : ∃ r, (Cspring.create 32 c stale).pushAll xs = some r ∧ r.Holds c ([] ++ xs) :=
    hempty.pushAll
  rw [List.nil_append] at h
  have hnum := h.num
  have hlt := Nat.mod_lt xs.length h.pos
  refine ⟨r, hr, by rw [hnum]; omega, by rw [h.next]; omega, by rw [h.next]; omega, fun i h0 h1 => ?_,
    fun i hi s => scsiSwapLogPeek_null hi, fun s => scsiSwapLogLast_holds h⟩
  obtain ⟨x, hx, hp⟩ := h.peek (i := i.toNat) (by omega)
  refine ⟨x, ?_, fun s => scsiSwapLogPeek_some h0 h1 ?_⟩
  · rw [hnum, Int.toNat_natCast]
    exact hx
  · rw [Int.toNat_of_nonneg h0] at hp
    exact hp

/-- A full ring of three items, the fourth and the fifth pushed over the first ones. -/
theorem ring_refines_queue_wrapped :
    let item : BitVec 32 → LogItem := fun t => ⟨0, t, 0, 0, 0, 0, 0, 0, 0, 0, 0⟩
    ∃ r, (Cspring.create 32 3 fun _ => item 0).pushAll [item 1, item 2, item 3, item 4, item 5] = some r ∧
      r.itemNum = 3 ∧
      ∀ s, (scsiSwapLogPeek r 0).run s = some (some (item 3), s) ∧
        (scsiSwapLogLast r).run s = some (some (item 5), s) := by
  intro item
  obtain ⟨r, hr, hnum, -, -, hpeek, -, hlast⟩ := ring_refines_queue 3 (by decide) (by decide) (fun _ => item 0)
    [item 1, item 2, item 3, item 4, item 5]
  have h3 : r.itemNum = 3 := hnum
  obtain ⟨x, hx, hp⟩ := hpeek 0 le_rfl (by rw [h3]; decide)
  rw [h3] at hx
  obtain rfl : item 3 = x := Option.some.inj hx
  exact ⟨r, hr, h3, fun s => ⟨hp s, hlast s⟩⟩

/-- **A ring of 2^27 + 1 items has a buffer for one**: 2^32 + 32 bytes are 32 in an `int`. The second item does
not go into it. -/
theorem ring_size_wraps :
    let item : BitVec 32 → LogItem := fun t => ⟨0, t, 0, 0, 0, 0, 0, 0, 0, 0, 0⟩
    let r := Cspring.create 32 (2 ^ 27 + 1) fun _ => item 0
    r.size = 32 ∧ (r.pushAll [item 1]).isSome = true ∧ (r.pushAll [item 1, item 2]).isNone = true := by
  decide +kernel

end ScsiSwap
