import ScsiSwap.Proof.Rounds
import ScsiSwap.Spec.Workers

/-!
# One mapping per block, with several workers

* `coreWriteBlock_workers`, `coreReadBlock_workers`: a round of the model is a run of one worker's steps, for the
  sectors of the round, so the steps are those of the code;
* `Workers.Exclusive`: a schedule in which no two workers are after one block, or after the last free mapping,
  at a time, and all blocks lie below sector 2^32;
* `Workers.Ok`: what such steps keep. A block that a worker is after has no mapping, and the mappings being
  made are accounted for;
* `one_mapping_per_block`: so there is at most one mapping for a block, and room for all of them;
* `two_mappings_for_a_block`: in other runs there is not.
-/

namespace ScsiSwap

open StateOption

variable {E : Env} {s s' : World} {n m : ℕ} {t t' : Workers n} {w : Fin n}

/-! ## Rounds as steps -/

/-- The list, by source sectors. -/
def View.srcs (v : View) : List ℕ := v.list.map fun p => (v.info p).table.srcSec.toNat

/-- A core with one worker. -/
def solo (l : List ℕ) (k : ℕ) (p : Pc) : Workers 1 := ⟨l, k, fun _ => p⟩

/-- It, between two rounds. -/
def View.solo (v : View) : Workers 1 := ScsiSwap.solo v.srcs v.num .idle

/-- The sector that a mapping for `g` is made for. -/
def Seg.src (g : Seg) : ℕ := (BitVec.ofNat 64 (swapSectorAlign g.sStart)).toNat

/-- The worker alone gets from `t` to `t'`, and looks up `src` under `key` only. -/
abbrev Gets (key src : ℕ) (t t' : Workers 1) : Prop :=
  Reach Workers.step (fun _ e => ∀ k b, e.2 = .lookup k b → k = key ∧ b = src) t t'

theorem goto_solo (l : List ℕ) (k : ℕ) (p q : Pc) : (solo l k p).goto 0 q = solo l k q := by
  unfold solo Workers.goto
  congr 1
  funext w
  rw [Subsingleton.elim w 0, Function.update_self]

section

variable {l : List ℕ} {k key src : ℕ}

/-- The lookup finds nothing. -/
theorem gets_missed (hb : key ∉ l) : Gets key src (solo l k .idle) (solo l k (.missed src)) := by
  have h : (Workers.step (0, .lookup key src)).run (solo l k .idle) = some ((), solo l k (.missed src)) := by
    show some ((), if key ∈ l then solo l k .idle else (solo l k .idle).goto 0 (.missed src)) = _
    rw [if_neg hb, goto_solo]
  refine .step .start (fun i b he => ?_) h
  obtain ⟨rfl, rfl⟩ := Act.lookup.inj he
  exact ⟨rfl, rfl⟩

/-- A step that is no lookup. -/
theorem Gets.next {u v x : Workers 1} {a : Act} (h : Gets key src u v) (ha : ∀ i b, a ≠ .lookup i b)
    (hs : (Workers.step (0, a)).run v = some ((), x)) : Gets key src u x :=
  .step h (fun i b he => absurd he (ha i b)) hs

/-- A round that makes no mapping. -/
theorem gets_left (hb : key ∉ l) : Gets key src (solo l k .idle) (solo l k .idle) := by
  refine (gets_missed hb).next (a := .leave) (by simp) ?_
  show some ((), (solo l k (.missed src)).goto 0 .idle) = _
  rw [goto_solo]

/-- A round that makes one. -/
theorem gets_created (hb : key ∉ l) (hk : k < maxSwapBlockForUse) :
    Gets key src (solo l k .idle) (solo (l ++ [src]) (k + 1) .idle) := by
  have h2 : (Workers.step (0, .check)).run (solo l k (.missed src)) = some ((), solo l k (.checked src)) := by
    show some ((), if k < maxSwapBlockForUse then (solo l k (.missed src)).goto 0 (.checked src) else _) = _
    rw [if_pos hk, goto_solo]
  have h3 : (Workers.step (0, .alloc true)).run (solo l k (.checked src)) =
      some ((), solo l k (.allocated src)) := by
    show some ((), (solo l k (.checked src)).goto 0 (.allocated src)) = _
    rw [goto_solo]
  have h4 : (Workers.step (0, .append)).run (solo l k (.allocated src)) =
      some ((), solo (l ++ [src]) k (.appended src)) := by
    show some ((), { (solo l k (.allocated src)).goto 0 (.appended src) with srcs := l ++ [src] }) = _
    rw [goto_solo]
    rfl
  have h5 : (Workers.step (0, .flush)).run (solo (l ++ [src]) k (.appended src)) =
      some ((), solo (l ++ [src]) k (.flushed src)) := by
    show some ((), (solo (l ++ [src]) k (.appended src)).goto 0 (.flushed src)) = _
    rw [goto_solo]
  have h6 : (Workers.step (0, .count)).run (solo (l ++ [src]) k (.flushed src)) =
      some ((), solo (l ++ [src]) (k + 1) .idle) := by
    show some ((), { (solo (l ++ [src]) k (.flushed src)).goto 0 .idle with infoNum := k + 1 }) = _
    rw [goto_solo]
    rfl
  exact ((((gets_missed hb).next (by simp) h2).next (by simp) h3).next (by simp) h4).next (by simp) h5
    |>.next (by simp) h6

end

theorem View.not_mem_srcs {v : View} {b : ℕ} (h : v.find b = none) : b ∉ v.srcs := by
  intro hb
  obtain ⟨p, hp, hpb⟩ := List.mem_map.1 hb
  exact View.find_none.1 h p hp hpb

theorem View.Grows.solo {v w : View} (h : v.Grows w) (hold : ∀ p ∈ v.list, p < v.brk) (hl : w.list = v.list)
    (hn : w.num = v.num) : w.solo = v.solo := by
  have hs : w.srcs = v.srcs := by
    unfold View.srcs
    rw [hl]
    refine List.map_congr_left fun p hp => ?_
    rw [h.src p (hold p hp)]
  unfold View.solo
  rw [hs, hn]

theorem View.create_solo {v : View} (hold : ∀ p ∈ v.list, p < v.brk) (c : BitVec 1024)
    (src index : ℕ) (d : Block) :
    (v.create c src index d).solo =
      ScsiSwap.solo (v.srcs ++ [(BitVec.ofNat 64 src).toNat]) (v.num + 1) .idle := by
  have hs : (v.create c src index d).srcs = v.srcs ++ [(BitVec.ofNat 64 src).toNat] := by
    show (v.list ++ [v.brk]).map _ = _
    rw [List.map_append]
    congr 1
    · refine List.map_congr_left fun p hp => ?_
      rw [View.create_info_old _ _ _ _ _ (hold p hp)]
    · show [((v.create c src index d).info v.brk).table.srcSec.toNat] = _
      rw [View.create_info_new]
      rfl
  unfold View.solo
  rw [hs]
  rfl

theorem gets_mapped {v : View} {b p : ℕ} (h : v.find b = some p) (src : ℕ) : Gets b src v.solo v.solo := by
  have hb : b ∈ v.srcs := by
    obtain ⟨hp, hpb⟩ := View.find_some h
    exact List.mem_map.2 ⟨p, hp, hpb⟩
  have h1 : (Workers.step (0, .lookup b src)).run v.solo = some ((), v.solo) := by
    show some ((), if b ∈ v.srcs then v.solo else v.solo.goto 0 (.missed src)) = _
    rw [if_pos hb]
  refine .step .start (fun i c he => ?_) h1
  obtain ⟨rfl, rfl⟩ := Act.lookup.inj he
  exact ⟨rfl, rfl⟩

/-- **A round of `scsi_swap_core_write` is a run of one worker's steps.** -/
theorem coreWriteBlock_workers {bad : ℤ} {g : Seg} {buf : ℕ → Sector} {r : Ret}
    (h : (coreWriteBlock E bad g buf).run s = some (r, s')) (hold : ∀ p ∈ s.core.infoList, p < s.brk) :
    Gets g.bStart g.src s.view.solo s'.view.solo := by
  have hstep := coreWriteBlock_step h
  have hgrow := hstep.grows
  cases hstep with
  | hit hp hw hu =>
    rw [hgrow.solo hold (hu.view ▸ hw.sameBut.list) (hu.view ▸ hw.sameBut.num)]
    exact gets_mapped hp _
  | direct hn hu hd =>
    rw [hu.view]
    exact gets_left (View.not_mem_srcs hn)
  | failed hn hk hu =>
    rw [hgrow.solo hold (hu.view ▸ hk.list) (hu.view ▸ hk.num)]
    exact gets_left (View.not_mem_srcs hn)
  | created hn hroom hb hi hfree hbit hseg hcopy hu =>
    rw [hu.view, View.create_solo hold]
    exact gets_created (View.not_mem_srcs hn) hroom

/-- **A round of `scsi_swap_core_read` is one, too.** -/
theorem coreReadBlock_workers {bad : ℤ} {g : Seg} {buf : ℕ → Sector} {r : Ret × (ℕ → Sector)}
    (h : (coreReadBlock E bad g buf).run s = some (r, s')) (hold : ∀ p ∈ s.core.infoList, p < s.brk) :
    Gets g.bStart g.src s.view.solo s'.view.solo := by
  have hstep := coreReadBlock_step h
  have hgrow := hstep.grows
  cases hstep with
  | hit hp hd hbuf => exact gets_mapped hp _
  | direct hn hu hbuf =>
    rw [hu.view]
    exact gets_left (View.not_mem_srcs hn)
  | failed hn hk hu =>
    rw [hgrow.solo hold (hu.view ▸ hk.list) (hu.view ▸ hk.num)]
    exact gets_left (View.not_mem_srcs hn)
  | created hn hroom hb hi hfree hbit hseg hout hbuf hu =>
    rw [hu.view, View.create_solo hold]
    exact gets_created (View.not_mem_srcs hn) hroom

/-! ## The schedule -/

/-- The block a worker is after: its lookup found nothing, and it has not entered a mapping yet. -/
def Pc.after : Pc → Option ℕ
  | .missed b | .checked b | .allocated b => some b
  | _ => none

/-- The worker is between its limit check and its count. -/
def Pc.creating : Pc → Bool
  | .checked _ | .allocated _ | .appended _ | .flushed _ => true
  | _ => false

/-- It has entered its mapping, and not counted it yet. -/
def Pc.uncounted : Pc → Bool
  | .appended _ | .flushed _ => true
  | _ => false

/-- The number of workers that are where `P` says. -/
def Workers.number (t : Workers n) (P : Pc → Bool) : ℕ := ∑ w, if P (t.pc w) then 1 else 0

/-- A block is looked up under its own sector, and while nobody else is after it. The limit check is passed while
there is a mapping left for everybody between the check and the count. -/
def Workers.Exclusive (t : Workers n) : Fin n × Act → Prop
  | (w, .lookup key src) => key = src ∧ ∀ x ≠ w, (t.pc x).after ≠ some src
  | (_, .check) => t.infoNum < maxSwapBlockForUse → t.infoNum + t.number Pc.creating < maxSwapBlockForUse
  | _ => True

/-! ## The invariant -/

/-- At most one mapping for a block, none for a block that somebody is after, and at most `m` of them. -/
structure Workers.Ok (m : ℕ) (t : Workers n) : Prop where
  nodup : t.srcs.Nodup
  fresh : ∀ w b, (t.pc w).after = some b → b ∉ t.srcs
  apart : ∀ w x b, (t.pc w).after = some b → (t.pc x).after = some b → w = x
  length : t.srcs.length = t.infoNum + t.number Pc.uncounted
  room : t.infoNum + t.number Pc.creating ≤ m

theorem number_goto (t : Workers n) (w : Fin n) (p : Pc) (P : Pc → Bool) :
    (t.goto w p).number P + (if P (t.pc w) then 1 else 0) = t.number P + if P p then 1 else 0 := by
  have hrest : ∑ x ∈ Finset.univ.erase w, (if P ((t.goto w p).pc x) then 1 else 0) =
      ∑ x ∈ Finset.univ.erase w, if P (t.pc x) then 1 else 0 := by
    refine Finset.sum_congr rfl fun x hx => ?_
    show (if P (Function.update t.pc w p x) then 1 else 0) = _
    rw [Function.update_of_ne (Finset.ne_of_mem_erase hx)]
  have hself : (t.goto w p).pc w = p := Function.update_self ..
  unfold Workers.number
  rw [← Finset.add_sum_erase _ _ (Finset.mem_univ w), ← Finset.add_sum_erase Finset.univ
    (fun x => if P (t.pc x) then 1 else 0) (Finset.mem_univ w), hrest, hself]
  omega

theorem Workers.number_mono (t : Workers n) {P Q : Pc → Bool} (h : ∀ p, P p = true → Q p = true) :
    t.number P ≤ t.number Q := by
  refine Finset.sum_le_sum fun x _ => ?_
  by_cases hp : P (t.pc x) = true
  · rw [if_pos hp, if_pos (h _ hp)]
  · rw [if_neg hp]
    exact Nat.zero_le _

theorem goto_pc_of_ne {x : Fin n} (hx : x ≠ w) (p : Pc) :
    (t.goto w p).pc x = t.pc x := Function.update_of_ne hx ..

theorem goto_pc_self (p : Pc) : (t.goto w p).pc w = p := Function.update_self ..

/-- A worker that gets to `p`, and may be after a block there. -/
theorem Workers.Ok.goto (h : t.Ok m) {p : Pc}
    (hp : ∀ b, p.after = some b → b ∉ t.srcs ∧ ∀ x ≠ w, (t.pc x).after ≠ some b)
    (hlen : p.uncounted = (t.pc w).uncounted)
    (hroom : t.infoNum + (t.goto w p).number Pc.creating ≤ m) : (t.goto w p).Ok m := by
  refine ⟨h.nodup, fun x b hx => ?_, fun x y b hx hy => ?_, ?_, hroom⟩
  · by_cases hxw : x = w
    · subst hxw
      rw [goto_pc_self] at hx
      exact (hp b hx).1
    · rw [goto_pc_of_ne hxw] at hx
      exact h.fresh x b hx
  · by_cases hxw : x = w <;> by_cases hyw : y = w
    · rw [hxw, hyw]
    · subst hxw
      rw [goto_pc_self] at hx
      rw [goto_pc_of_ne hyw] at hy
      exact absurd hy ((hp b hx).2 y hyw)
    · subst hyw
      rw [goto_pc_self] at hy
      rw [goto_pc_of_ne hxw] at hx
      exact absurd hx ((hp b hy).2 x hxw)
    · rw [goto_pc_of_ne hxw] at hx
      rw [goto_pc_of_ne hyw] at hy
      exact h.apart x y b hx hy
  · have hnum := number_goto t w p Pc.uncounted
    rw [hlen] at hnum
    show t.srcs.length = t.infoNum + (t.goto w p).number Pc.uncounted
    rw [h.length]
    omega

/-- The worker stays after the block it was after, or gives it up. -/
theorem Workers.Ok.on (h : t.Ok m) {p : Pc} (hp : p.after = none ∨ p.after = (t.pc w).after)
    (hlen : p.uncounted = (t.pc w).uncounted)
    (hroom : t.infoNum + (t.goto w p).number Pc.creating ≤ m) : (t.goto w p).Ok m := by
  refine h.goto (fun b hb => ?_) hlen hroom
  rcases hp with hp | hp
  · exact absurd (hp.symm.trans hb) (by simp)
  · rw [hp] at hb
    exact ⟨h.fresh w b hb, fun x hxw hx => hxw (h.apart x w b hx hb)⟩

/-- A step that starts no creation. -/
theorem Workers.Ok.back (h : t.Ok m) {p : Pc} (hp : p.after = none ∨ p.after = (t.pc w).after)
    (hlen : p.uncounted = (t.pc w).uncounted) (hc : p.creating = true → (t.pc w).creating = true) :
    (t.goto w p).Ok m := by
  refine h.on hp hlen ?_
  have hnum := number_goto t w p Pc.creating
  have hroom := h.room
  by_cases hpc : p.creating = true
  · rw [if_pos hpc, if_pos (hc hpc)] at hnum
    omega
  · rw [if_neg hpc] at hnum
    omega

/-- The append: the block now has a mapping, and nobody else is after it. -/
theorem Workers.Ok.append (h : t.Ok m) {b : ℕ} (hpc : t.pc w = .allocated b) :
    Workers.Ok m { t.goto w (.appended b) with srcs := t.srcs ++ [b] } := by
  have hafter : (t.pc w).after = some b := by rw [hpc]; rfl
  have hfresh := h.fresh w b hafter
  have hlen := number_goto t w (.appended b) Pc.uncounted
  have hcreating := number_goto t w (.appended b) Pc.creating
  rw [hpc] at hlen hcreating
  simp only [Pc.uncounted, Pc.creating, Bool.false_eq_true, if_false, if_true] at hlen hcreating
  -- a worker that is after a block now was so before
  have hold : ∀ x c, ((t.goto w (.appended b)).pc x).after = some c → x ≠ w ∧ (t.pc x).after = some c := by
    intro x c hx
    by_cases hxw : x = w
    · subst hxw
      rw [goto_pc_self] at hx
      exact absurd hx (by simp [Pc.after])
    · exact ⟨hxw, goto_pc_of_ne hxw (.appended b) ▸ hx⟩
  refine ⟨?_, fun x c hx hmem => ?_, fun x y c hx hy => ?_, ?_, ?_⟩
  · refine List.Nodup.append h.nodup (List.nodup_singleton b) fun x hx hxb => ?_
    rw [List.mem_singleton.1 hxb] at hx
    exact hfresh hx
  · obtain ⟨hxw, hx⟩ := hold x c hx
    rcases List.mem_append.1 hmem with hmem | hmem
    · exact h.fresh x c hx hmem
    · rw [List.mem_singleton.1 hmem] at hx
      exact hxw (h.apart x w b hx hafter)
  · exact h.apart x y c (hold x c hx).2 (hold y c hy).2
  · show (t.srcs ++ [b]).length = t.infoNum + (t.goto w (.appended b)).number Pc.uncounted
    rw [List.length_append, List.length_singleton, h.length]
    omega
  · show t.infoNum + (t.goto w (.appended b)).number Pc.creating ≤ m
    have hroom := h.room
    omega

/-- The count: one more in `info_num`, and one less between check and count. -/
theorem Workers.Ok.count (h : t.Ok m) {b : ℕ} (hpc : t.pc w = .flushed b) :
    Workers.Ok m { t.goto w .idle with infoNum := t.infoNum + 1 } := by
  have hlen := number_goto t w .idle Pc.uncounted
  have hcreating := number_goto t w .idle Pc.creating
  have hroom := h.room
  have hlength := h.length
  rw [hpc] at hlen hcreating
  simp only [Pc.uncounted, Pc.creating, Bool.false_eq_true, if_false, if_true] at hlen hcreating
  have hold : ∀ x c, ((t.goto w .idle).pc x).after = some c → (t.pc x).after = some c := by
    intro x c hx
    by_cases hxw : x = w
    · subst hxw
      rw [goto_pc_self] at hx
      exact absurd hx (by simp [Pc.after])
    · exact goto_pc_of_ne hxw .idle ▸ hx
  refine ⟨h.nodup, fun x c hx => h.fresh x c (hold x c hx),
    fun x y c hx hy => h.apart x y c (hold x c hx) (hold y c hy),
    ?_, ?_⟩
  · show t.srcs.length = t.infoNum + 1 + (t.goto w .idle).number Pc.uncounted
    omega
  · show t.infoNum + 1 + (t.goto w .idle).number Pc.creating ≤ m
    omega

theorem Workers.Ok.step (h : t.Ok m) (hm : maxSwapBlockForUse ≤ m) {e : Fin n × Act} (hx : t.Exclusive e)
    (hs : (Workers.step e).run t = some ((), t')) : t'.Ok m := by
  obtain ⟨w, a⟩ := e
  change Workers.step (w, a) t = some ((), t') at hs
  unfold Workers.step at hs
  dsimp only at hs
  split at hs <;> (try obtain ⟨-, rfl⟩ := Prod.mk.inj (Option.some.inj hs))
  · -- the lookup: a block without a mapping, that nobody else is after
    rename_i key src hpc
    obtain ⟨rfl, hother⟩ := hx
    split
    · exact h
    · rename_i hfresh
      have hnum := number_goto t w (.missed key) Pc.creating
      have hroom := h.room
      refine h.goto (fun b hb => ?_) (by rw [hpc]; rfl) ?_
      · obtain rfl : key = b := Option.some.inj hb
        exact ⟨hfresh, hother⟩
      · rw [hpc] at hnum
        simp only [Pc.creating, Bool.false_eq_true, if_false] at hnum
        omega
  · rename_i b hpc
    exact h.back (Or.inl rfl) (by rw [hpc]; rfl) (by simp [Pc.creating])
  · -- the limit check
    rename_i b hpc
    split
    · rename_i hlt
      have hroom : t.infoNum + t.number Pc.creating < maxSwapBlockForUse := hx hlt
      have hnum := number_goto t w (.checked b) Pc.creating
      rw [hpc] at hnum
      simp only [Pc.creating, Bool.false_eq_true, if_false, if_true] at hnum
      exact h.on (Or.inr (by rw [hpc]; rfl)) (by rw [hpc]; rfl) (by omega)
    · exact h.back (Or.inl rfl) (by rw [hpc]; rfl) (by simp [Pc.creating])
  · -- the allocation
    rename_i b ok hpc
    split
    · exact h.back (Or.inr (by rw [hpc]; rfl)) (by rw [hpc]; rfl) (by rw [hpc]; exact id)
    · exact h.back (Or.inl rfl) (by rw [hpc]; rfl) (by simp [Pc.creating])
  · rename_i b hpc
    exact h.back (Or.inl rfl) (by rw [hpc]; rfl) (by simp [Pc.creating])
  · rename_i b hpc
    exact h.append hpc
  · rename_i b hpc
    exact h.back (Or.inl rfl) (by rw [hpc]; rfl) (by rw [hpc]; exact id)
  · rename_i b hpc
    exact h.count hpc
  · exact absurd hs (by simp)

/-! ## Runs -/

/-- A core with nobody at work. -/
def Workers.quiet (n : ℕ) (l : List ℕ) : Workers n := ⟨l, l.length, fun _ => .idle⟩

theorem quiet_ok {l : List ℕ} (hl : l.Nodup) : (Workers.quiet n l).Ok (max maxSwapBlockForUse l.length) := by
  have hidle : ∀ w b, ((Workers.quiet n l).pc w).after ≠ some b := fun w b => by simp [Workers.quiet, Pc.after]
  have hnone : ∀ P : Pc → Bool, P .idle = false → (Workers.quiet n l).number P = 0 := fun P hP => by
    simp [Workers.number, Workers.quiet, hP]
  refine ⟨hl, fun w b hb => absurd hb (hidle w b), fun w x b hb => absurd hb (hidle w b), ?_, ?_⟩
  · rw [hnone _ rfl]
    rfl
  · rw [hnone _ rfl]
    exact le_max_right _ _

/-- **One mapping per block, and no creation beyond 128 of them**, in any interleaving of any number of workers
with such a schedule. -/
theorem one_mapping_per_block {l : List ℕ} (hl : l.Nodup)
    (h : Reach Workers.step Workers.Exclusive (Workers.quiet n l) t) :
    t.srcs.Nodup ∧ t.srcs.length ≤ max maxSwapBlockForUse l.length := by
  have hok := h.inv (quiet_ok hl) fun u e r u' hu hx hs => hu.step (le_max_left _ _) hx hs
  have hlen := hok.length
  have hroom := hok.room
  have hle : t.number Pc.uncounted ≤ t.number Pc.creating := t.number_mono fun p hp => by
    cases p <;> first | rfl | exact absurd hp (by simp [Pc.uncounted])
  exact ⟨hok.nodup, by omega⟩

/-- Two workers map two blocks, their steps interleaved; a third round finds the mapping of the first. -/
theorem one_mapping_per_block_two : ∃ t, Reach Workers.step Workers.Exclusive (Workers.quiet 2 []) t ∧
    t.srcs = [0, 128] ∧ t.srcs.Nodup ∧ t.srcs.length ≤ max maxSwapBlockForUse 0 := by
  have h0 : Reach Workers.step Workers.Exclusive (Workers.quiet 2 []) (Workers.quiet 2 []) := .start
  have h2 := h0.step (o := (0, Act.lookup 0 0)) (by exact ⟨rfl, by decide⟩) rfl
    |>.step (o := (1, Act.lookup 128 128)) (by exact ⟨rfl, by decide⟩) rfl
  have h4 := h2.step (o := (0, Act.check)) (by intro; decide) rfl
    |>.step (o := (1, Act.check)) (by intro; decide) rfl
  have h6 := h4.step (o := (0, Act.alloc true)) (by trivial) rfl |>.step
    (o := (1, Act.alloc true)) (by trivial) rfl
  have h8 := h6.step (o := (0, Act.append)) (by trivial) rfl |>.step (o := (1, Act.append)) (by trivial) rfl
  have h11 := h8.step (o := (0, Act.flush)) (by trivial) rfl |>.step (o := (0, Act.count)) (by trivial) rfl
    |>.step (o := (0, Act.lookup 0 0)) (by exact ⟨rfl, by decide⟩) rfl
  exact ⟨_, h11, rfl, one_mapping_per_block List.nodup_nil h11⟩

/-- Both workers have looked up their blocks, `a` and `b`, before either of them enters a mapping. -/
def overlapping (a b : ℕ) : List (Fin 2 × Act) :=
  [(0, .lookup a a), (1, .lookup b b), (0, .check), (1, .check), (0, .alloc true), (1, .alloc true), (0, .append),
    (1, .append)]

/-- One worker makes a mapping for the block at sector 2^32, whose start is 0 in 32 bits. -/
def farRound : List (Fin 1 × Act) :=
  [(0, .lookup 0 (2 ^ 32)), (0, .check), (0, .alloc true), (0, .append), (0, .flush), (0, .count)]

/-- **Two mappings for one block, and one mapping too many**: both workers find block 0 unmapped; both find 127
mappings; one worker alone does not find the mapping it made. -/
theorem two_mappings_for_a_block :
    ((runAll Workers.step (overlapping 0 0)).run (Workers.quiet 2 [])).map (fun r => r.2.srcs) = some [0, 0] ∧
    ((runAll Workers.step (overlapping 0 128)).run
      (Workers.quiet 2 ((List.range 127).map fun i => 128 * (i + 2)))).map (fun r => r.2.srcs.length) = some 129 ∧
    ((runAll Workers.step (farRound ++ farRound)).run (Workers.quiet 1 [])).map (fun r => r.2.srcs) =
      some [2 ^ 32, 2 ^ 32] := by
  decide +kernel

end ScsiSwap
