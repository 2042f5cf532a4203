import Mathlib

/-!
# Shift registers with feedback

A register of `w` bits moves down by one place. The bit that falls out decides whether `p` is added
(`step`). With words of `k` bits added at the low end, `k` steps at a time (`feed`), this is how checksums
over a list of words are computed.

* `step_xor`, `step_injective`: a step is linear, and loses nothing if the highest bit of `p` is set;
* `foldl_feed`: words that fit into the register can be added all at once;
* `foldl_feed_xor`: what a list of words adds is the same in every state;
* `burst_detected`: so two lists that differ only in such a stretch end in different states.
-/

namespace ShiftRegister

variable {w k : ℕ} {p : BitVec w}

/-! ## One step -/

def step (p c : BitVec w) : BitVec w := if c.getLsbD 0 then (c >>> 1) ^^^ p else c >>> 1

theorem step_xor (a b : BitVec w) : step p (a ^^^ b) = step p a ^^^ step p b := by
  unfold step
  rw [BitVec.getLsbD_xor, BitVec.ushiftRight_xor_distrib]
  cases a.getLsbD 0 <;> cases b.getLsbD 0
  · simp
  · simp [BitVec.xor_assoc]
  · simp only [Bool.xor_false, if_true, Bool.false_eq_true, if_false]
    rw [BitVec.xor_assoc, BitVec.xor_assoc, BitVec.xor_comm p]
  · simp only [Bool.xor_self, Bool.false_eq_true, if_false, if_true]
    rw [BitVec.xor_assoc, BitVec.xor_comm p, BitVec.xor_assoc, BitVec.xor_self, BitVec.xor_zero]

/-- The highest bit after a step shows which bit fell out. -/
theorem step_high (hp : p.getLsbD (w - 1) = true) (c : BitVec w) : (step p c).getLsbD (w - 1) = c.getLsbD 0 := by
  have hout : (c >>> 1).getLsbD (w - 1) = false := by
    rw [BitVec.getLsbD_ushiftRight]
    exact BitVec.getLsbD_of_ge _ _ (by omega)
  unfold step
  split
  · rename_i h
    rw [BitVec.getLsbD_xor, hout, hp, h]
    rfl
  · rename_i h
    rw [hout]
    simpa using h

theorem step_eq_zero (hp : p.getLsbD (w - 1) = true) {c : BitVec w} (h : step p c = 0) : c = 0 := by
  have hlow : c.getLsbD 0 = false := by
    rw [← step_high hp, h]
    simp
  unfold step at h
  rw [hlow] at h
  refine BitVec.eq_of_getLsbD_eq fun i hi => ?_
  cases i with
  | zero => simpa using hlow
  | succ i =>
    have hbit : (c >>> 1).getLsbD i = (0 : BitVec w).getLsbD i := by rw [← h]; rfl
    rw [BitVec.getLsbD_ushiftRight, Nat.add_comm] at hbit
    simpa using hbit

theorem step_injective (hp : p.getLsbD (w - 1) = true) : Function.Injective (step p) := by
  intro a b h
  have hzero : step p (a ^^^ b) = 0 := by
    rw [step_xor, h, BitVec.xor_self]
    rfl
  exact BitVec.xor_eq_zero_iff.1 (step_eq_zero hp hzero)

/-! ## Many steps -/

theorem steps_xor (n : ℕ) (a b : BitVec w) : (step p)^[n] (a ^^^ b) = (step p)^[n] a ^^^ (step p)^[n] b := by
  induction n generalizing a b with
  | zero => rfl
  | succ n ih => rw [Function.iterate_succ_apply, step_xor,
      ih, ← Function.iterate_succ_apply, ← Function.iterate_succ_apply]

/-- As long as only zeros fall out, the register is just shifted. -/
theorem steps_shift {c : BitVec w} {n : ℕ} (h : ∀ i < n, c.getLsbD i = false) : (step p)^[n] c = c >>> n := by
  induction n with
  | zero => simp
  | succ n ih =>
    rw [Function.iterate_succ_apply', ih fun i hi => h i (by omega)]
    have hlow : (c >>> n).getLsbD 0 = false := by
      rw [BitVec.getLsbD_ushiftRight]
      exact h n (by omega)
    unfold step
    rw [hlow, BitVec.shiftRight_add]
    rfl

/-- So a shift up by `n` places is undone by `n` steps, if nothing was lost. -/
theorem steps_shiftLeft {c : BitVec w} {n m : ℕ} (h : c.toNat < 2 ^ m) (hw : m + n ≤ w) :
    (step p)^[n] (c <<< n) = c := by
  rw [steps_shift fun i hi => by simp [BitVec.getLsbD_shiftLeft, hi]]
  refine BitVec.eq_of_toNat_eq ?_
  have hlt : c.toNat * 2 ^ n < 2 ^ w := by
    calc c.toNat * 2 ^ n < 2 ^ m * 2 ^ n := Nat.mul_lt_mul_of_pos_right h (Nat.two_pow_pos n)
      _ = 2 ^ (m + n) := (Nat.pow_add ..).symm
      _ ≤ 2 ^ w := Nat.pow_le_pow_right (by decide) hw
  rw [BitVec.toNat_ushiftRight, BitVec.toNat_shiftLeft, Nat.shiftLeft_eq, Nat.mod_eq_of_lt hlt,
    Nat.shiftRight_eq_div_pow,
    Nat.mul_div_cancel _ (Nat.two_pow_pos n)]

/-- `n` steps of the low `n` bits decide what is added to the others. -/
theorem steps_split (c : BitVec w) (n : ℕ) :
    (step p)^[n] c = (step p)^[n] ((c.setWidth n).setWidth w) ^^^ c >>> n := by
  have hsplit : c = (c.setWidth n).setWidth w ^^^ (c >>> n) <<< n := by
    refine BitVec.eq_of_getLsbD_eq fun i hi => ?_
    rw [BitVec.getLsbD_xor, BitVec.getLsbD_setWidth, BitVec.getLsbD_setWidth, BitVec.getLsbD_shiftLeft,
      BitVec.getLsbD_ushiftRight]
    by_cases hn : i < n
    · simp [hi, hn]
    · simp [hi, hn, show n + (i - n) = i by omega]
  have hlow : ∀ i < n, ((c >>> n) <<< n).getLsbD i = false := fun i hi => by simp [BitVec.getLsbD_shiftLeft, hi]
  have hhigh : ((c >>> n) <<< n) >>> n = c >>> n := by
    refine BitVec.eq_of_getLsbD_eq fun i hi => ?_
    rw [BitVec.getLsbD_ushiftRight, BitVec.getLsbD_shiftLeft, BitVec.getLsbD_ushiftRight]
    by_cases hn : n + i < w
    · simp [hn]
    · simp [hn, BitVec.getLsbD_of_ge c (n + i) (by omega)]
  calc (step p)^[n] c = (step p)^[n] ((c.setWidth n).setWidth w ^^^ (c >>> n) <<< n) := congrArg _ hsplit
    _ = (step p)^[n] ((c.setWidth n).setWidth w) ^^^ c >>> n := by rw [steps_xor, steps_shift hlow, hhigh]

/-! ## Words -/

/-- Add a word, and take a step for each of its bits. -/
def feed (p c : BitVec w) (b : BitVec k) : BitVec w := (step p)^[k] (c ^^^ b.setWidth w)

/-- Words one after another, the first one lowest. -/
def pack (w : ℕ) : List (BitVec k) → BitVec w
  | [] => 0
  | b :: bs => b.setWidth w ^^^ pack w bs <<< k

theorem pack_lt (bs : List (BitVec k)) : (pack w bs).toNat < 2 ^ (k * bs.length) := by
  induction bs with
  | nil => simp [pack]
  | cons b bs ih =>
    unfold pack
    rw [BitVec.toNat_xor, List.length_cons, Nat.mul_succ]
    refine Nat.xor_lt_two_pow ?_ ?_
    · rw [BitVec.toNat_setWidth]
      calc b.toNat % 2 ^ w ≤ b.toNat := Nat.mod_le ..
        _ < 2 ^ k := b.isLt
        _ ≤ 2 ^ (k * bs.length + k) := Nat.pow_le_pow_right (by decide) (by omega)
    · rw [BitVec.toNat_shiftLeft, Nat.shiftLeft_eq, Nat.pow_add]
      exact Nat.lt_of_le_of_lt (Nat.mod_le ..) (Nat.mul_lt_mul_of_pos_right ih (Nat.two_pow_pos k))

/-- **Words that fit into the register can be added at once.** -/
theorem foldl_feed {bs : List (BitVec k)} (c : BitVec w) (h : k * bs.length ≤ w) :
    bs.foldl (feed p) c = (step p)^[k * bs.length] (c ^^^ pack w bs) := by
  induction bs generalizing c with
  | nil => simp [pack]
  | cons b bs ih =>
    rw [List.length_cons, Nat.mul_succ] at h ⊢
    rw [List.foldl_cons, ih _ (by omega), Function.iterate_add_apply]
    congr 1
    show (step p)^[k] (c ^^^ b.setWidth w) ^^^ pack w bs = (step p)^[k] (c ^^^ (b.setWidth w ^^^ pack w bs <<< k))
    rw [← BitVec.xor_assoc, steps_xor (p := p) k (c ^^^ b.setWidth w), steps_shiftLeft (pack_lt bs) h]

theorem pack_injective : ∀ {bs cs : List (BitVec k)}, bs.length = cs.length → k * bs.length ≤ w →
    pack w bs = pack w cs →
    bs = cs := by
  intro bs
  induction bs with
  | nil =>
    intro cs hlen _ _
    exact (List.length_eq_zero_iff.1 hlen.symm).symm
  | cons b bs ih =>
    intro cs hlen hw h
    cases cs with
    | nil => exact absurd hlen (by simp)
    | cons c cs =>
      rw [List.length_cons, List.length_cons, Nat.add_right_cancel_iff] at hlen
      rw [List.length_cons, Nat.mul_succ] at hw
      -- the low bits are the first word, the others the rest
      have hbit : ∀ i, (pack w (b :: bs)).getLsbD i = (pack w (c :: cs)).getLsbD i := fun i => by rw [h]
      unfold pack at hbit
      have hfirst : b = c := by
        refine BitVec.eq_of_getLsbD_eq fun i hi => ?_
        have := hbit i
        simpa [BitVec.getLsbD_xor, BitVec.getLsbD_setWidth, BitVec.getLsbD_shiftLeft, hi,
          show i < w by omega] using this
      subst hfirst
      have hrest : pack w bs <<< k = pack w cs <<< k := by
        unfold pack at h
        exact (BitVec.xor_right_inj _).1 h
      have hsteps := congrArg (step (0 : BitVec w))^[k] hrest
      rw [steps_shiftLeft (pack_lt bs) hw, steps_shiftLeft (pack_lt cs) (by rw [← hlen]; exact hw)] at hsteps
      rw [ih hlen (by omega) hsteps]

/-- What a list adds to the register does not depend on what was in it. -/
theorem foldl_feed_xor (x y : BitVec w) (bs : List (BitVec k)) :
    bs.foldl (feed p) (x ^^^ y) =
      (List.replicate bs.length (0 : BitVec k)).foldl (feed p) x ^^^ bs.foldl (feed p) y := by
  induction bs generalizing x y with
  | nil => rfl
  | cons b bs ih =>
    have hfeed : feed p (x ^^^ y) b = feed p x (0 : BitVec k) ^^^ feed p y b := by
      unfold feed
      rw [show (0 : BitVec k).setWidth w = 0 from BitVec.setWidth_zero .., show x ^^^ 0 = x from BitVec.xor_zero,
        BitVec.xor_assoc, steps_xor]
    rw [List.foldl_cons, hfeed, ih, List.length_cons, List.replicate_succ, List.foldl_cons, List.foldl_cons]

theorem foldl_feed_injective (hp : p.getLsbD (w - 1) = true) (bs : List (BitVec k)) :
    Function.Injective fun c => bs.foldl (feed p) c := by
  induction bs with
  | nil => exact Function.injective_id
  | cons b bs ih =>
    intro c c' h
    have hfeed : feed p c b = feed p c' b := ih h
    exact (BitVec.xor_left_inj _).1 ((step_injective hp).iterate k hfeed)

/-- **A change that fits into the register is never lost**, whatever stands before and behind it. -/
theorem burst_detected (hp : p.getLsbD (w - 1) = true) {c : BitVec w} {pre post bs cs : List (BitVec k)}
    (hlen : bs.length = cs.length) (hw : k * bs.length ≤ w)
    (h : (pre ++ bs ++ post).foldl (feed p) c = (pre ++ cs ++ post).foldl (feed p) c) : bs = cs := by
  rw [List.foldl_append, List.foldl_append, List.foldl_append, List.foldl_append] at h
  generalize pre.foldl (feed p) c = c' at h
  have hmid : bs.foldl (feed p) c' = cs.foldl (feed p) c' := foldl_feed_injective hp post h
  rw [foldl_feed c' hw, foldl_feed c' (hlen ▸ hw), ← hlen] at hmid
  have hpack := (step_injective hp).iterate _ hmid
  exact pack_injective hlen hw ((BitVec.xor_right_inj _).1 hpack)

end ShiftRegister
