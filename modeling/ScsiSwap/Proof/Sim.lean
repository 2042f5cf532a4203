import ScsiSwap.Proof.Sd
import ScsiSwap.Spec.Sim

/-!
# Simulated bad sectors

* `sim_hit_iff`: a request is made to fail exactly if it meets a range of the list;
* `remove_undoes_add_iff`: a removal undoes an addition exactly if it finds no older range with the same start;
* `scmd_decodes_iff`: the simulator reads a command as `sd_prep_fn` wrote it, exactly if the request did not
  get past the capacity check by running past 2^64.
-/

namespace ScsiSwap

/-! ## The list -/

/-- A call of `scsi_swap_sim_add`, by whether there is memory, or of `scsi_swap_sim_remove`. -/
inductive SimCall where
  | add (mem : Bool) (sector : BitVec 64) (num : ℤ)
  | remove (sector : BitVec 64) (num : ℤ)

def SimCall.run (sim : List SimNode) : SimCall → List SimNode
  | .add mem sector num => (scsiSwapSimAdd mem sim sector num).2
  | .remove sector num => (scsiSwapSimRemove sim sector num).2

/-- The sectors of a range. -/
def SimNode.Has (node : SimNode) (x : ℕ) : Prop := node.start.toNat ≤ x ∧ x < node.start.toNat + node.num.toNat

/-- A range that is not empty and does not run past 2^64. -/
def SimNode.Ok (node : SimNode) : Prop := 0 < node.num.toNat ∧ node.start.toNat + node.num.toNat ≤ 2 ^ 64

/-- What is added is such a range. -/
def SimCall.Ok : SimCall → Prop
  | .add _ sector num => SimNode.Ok ⟨sector, .ofInt 32 num⟩
  | .remove _ _ => True

theorem SimCall.run_ok {sim : List SimNode} {c : SimCall} (hc : c.Ok) (h : ∀ node ∈ sim, node.Ok) :
    ∀ node ∈ c.run sim, node.Ok := by
  cases c with
  | add mem sector num =>
    intro node hn
    unfold SimCall.run scsiSwapSimAdd at hn
    cases mem with
    | false => exact h node hn
    | true =>
      rcases List.mem_append.1 hn with hn | hn
      · exact h node hn
      · obtain rfl := List.mem_singleton.1 hn
        exact hc
  | remove sector num => exact fun node hn => h node (List.mem_of_mem_eraseP hn)

theorem runs_ok {sim : List SimNode} {cs : List SimCall} (hc : ∀ c ∈ cs, c.Ok) (h : ∀ node ∈ sim, node.Ok) :
    ∀ node ∈ cs.foldl SimCall.run sim, node.Ok := by
  induction cs generalizing sim with
  | nil => exact h
  | cons c cs ih =>
    exact ih (fun c' hc' => hc c' (List.mem_cons_of_mem _ hc')) (SimCall.run_ok (hc c List.mem_cons_self) h)

/-- Two ranges, given by their first and last sectors, meet. -/
theorem sectorAHitSectorB_iff {a b n m : ℕ} (hn : 0 < n) (hm : 0 < m) :
    sectorAHitSectorB a (a + n - 1) b (b + m - 1) = true ↔ ∃ x, (a ≤ x ∧ x < a + n) ∧ b ≤ x ∧ x < b + m := by
  unfold sectorAHitSectorB
  rw [decide_eq_true_eq]
  constructor
  · rintro (h | h | h)
    · exact ⟨a, by omega, by omega⟩
    · exact ⟨a + n - 1, by omega, by omega⟩
    · exact ⟨b, by omega, by omega⟩
  · rintro ⟨x, hx, hx'⟩
    omega

/-- **Simulated hits are exact**, for every list made of ranges and every request that are not empty and do not
run past 2^64. -/
theorem sim_hit_iff {cs : List SimCall} (hcs : ∀ c ∈ cs, c.Ok) {sector : BitVec 64} {num : ℤ} (hnum : 0 < num)
    (hend : sector.toNat + num ≤ 2 ^ 64) :
    scsiSwapSimHit (cs.foldl SimCall.run []) sector num = true ↔
      ∃ x : ℕ, (sector.toNat ≤ x ∧ (x : ℤ) < sector.toNat + num) ∧
        ∃ node ∈ cs.foldl SimCall.run [], node.Has x := by
  have hok : ∀ node ∈ cs.foldl SimCall.run [], node.Ok := runs_ok hcs (by simp)
  obtain ⟨n, rfl⟩ := Int.eq_ofNat_of_zero_le hnum.le
  unfold scsiSwapSimHit
  rw [List.any_eq_true]
  have hnode : ∀ node ∈ cs.foldl SimCall.run [], sectorAHitSectorB sector.toNat (u64 (sector.toNat + n - 1))
      node.start.toNat (u64 (node.start.toNat + node.num.toNat - 1)) = true ↔
      ∃ x, (sector.toNat ≤ x ∧ x < sector.toNat + n) ∧ node.Has x := by
    intro node hn
    obtain ⟨h0, h1⟩ := hok node hn
    rw [show u64 (sector.toNat + n - 1) = sector.toNat + n - 1 by unfold u64; omega,
      show u64 (node.start.toNat + node.num.toNat - 1) = node.start.toNat + node.num.toNat - 1 by
        unfold u64; omega]
    exact sectorAHitSectorB_iff (by omega) h0
  constructor
  · rintro ⟨node, hn, hhit⟩
    obtain ⟨x, hx, hhas⟩ := (hnode node hn).1 hhit
    exact ⟨x, by omega, node, hn, hhas⟩
  · rintro ⟨x, hx, node, hn, hhas⟩
    exact ⟨node, hn, (hnode node hn).2 ⟨x, by omega, hhas⟩⟩

/-- A range inside of the request, after another one has come and gone. -/
theorem sim_hit_iff_inside :
    let sim := [SimCall.add true 100 8, .add true 500 1, .remove 500 0].foldl SimCall.run []
    scsiSwapSimHit sim 96 32 = true := by
  intro sim
  refine (sim_hit_iff ?_ (by decide) (by decide)).2 ⟨100, by decide, ⟨100, 8⟩, ?_, by decide, by decide⟩
  · intro c hc
    simp only [List.mem_cons, List.not_mem_nil, or_false] at hc
    rcases hc with rfl | rfl | rfl
    · exact ⟨by decide, by decide⟩
    · exact ⟨by decide, by decide⟩
    · trivial
  · decide

/-! ## Removing what was added -/

/-- Adding at the end and removing the first that matches leaves the same elements, if the first that matches
is the one added, or equal to it. -/
theorem eraseP_append_perm_iff {α : Type} [DecidableEq α] {p : α → Bool} {x : α} (hx : p x = true) (L : List α) :
    ((L ++ [x]).eraseP p).Perm L ↔ ∀ y, L.find? p = some y → y = x := by
  induction L with
  | nil => simp [hx]
  | cons a L ih =>
    rw [List.cons_append, List.eraseP_cons, List.find?_cons]
    cases hp : p a with
    | true =>
      simp only [cond_true, Option.some.injEq, forall_eq']
      constructor
      · intro h
        have hcount := (List.perm_iff_count.1 h) x
        rw [List.count_append, List.count_singleton_self, List.count_cons] at hcount
        by_contra hne
        rw [if_neg (by simpa using hne)] at hcount
        omega
      · rintro rfl
        exact List.perm_append_singleton a L
    | false =>
      simp only [cond_false]
      rw [List.perm_cons]
      exact ih

theorem eraseP_perm_iff {α : Type} {p : α → Bool} {L : List α} : (L.eraseP p).Perm L ↔ L.find? p = none := by
  constructor
  · intro h
    have hlen := h.length_eq
    rw [List.find?_eq_none]
    intro a ha hp
    rw [List.length_eraseP_of_mem ha hp] at hlen
    have := List.length_pos_of_mem ha
    omega
  · intro h
    rw [List.eraseP_of_forall_not (List.find?_eq_none.1 h)]

theorem scsiSwapSimHit_perm {L L' : List SimNode} (h : L'.Perm L) (sector : BitVec 64) (num : ℤ) :
    scsiSwapSimHit L' sector num = scsiSwapSimHit L sector num := by
  rw [Bool.eq_iff_iff]
  unfold scsiSwapSimHit
  simp only [List.any_eq_true, h.mem_iff]

/-- **Removing a simulated range undoes adding it** exactly if no older range starts at the same sector, or the
first of them is as long and there was memory for the new one. -/
theorem remove_undoes_add_iff (mem : Bool) (L : List SimNode) (sector : BitVec 64) (num : ℤ) :
    let L' := (scsiSwapSimRemove (scsiSwapSimAdd mem L sector num).2 sector num).2
    (L'.Perm L ∧ ∀ x n, scsiSwapSimHit L' x n = scsiSwapSimHit L x n) ↔
      ∀ node, L.find? (fun node => node.start = sector) = some node → mem = true ∧ node.num = .ofInt 32 num := by
  intro L'
  have hperm : L'.Perm L ↔
      ∀ node, L.find? (fun node => node.start = sector) = some node → mem = true ∧ node.num = .ofInt 32 num := by
    cases mem with
    | false =>
      have hsame : (scsiSwapSimAdd false L sector num).2 = L := rfl
      refine eraseP_perm_iff.trans ?_
      rw [hsame, Option.eq_none_iff_forall_not_mem]
      simp
    | true =>
      refine (eraseP_append_perm_iff (by simp) L).trans (forall_congr' fun node => imp_congr_right fun hf => ?_)
      have hstart : node.start = sector := by simpa using List.find?_some hf
      rw [SimNode.mk.injEq]
      simp [hstart]
  rw [← hperm]
  exact ⟨fun h => h.1, fun h => ⟨h, scsiSwapSimHit_perm h⟩⟩

/-- **The shorter range** is gone, and the longer one, which was to be removed, is still there. -/
theorem remove_takes_older :
    let L : List SimNode := [⟨5, 1⟩]
    let L' := (scsiSwapSimRemove (scsiSwapSimAdd true L 5 10).2 5 10).2
    L' = [⟨5, 10⟩] ∧ scsiSwapSimHit L 8 1 = false ∧ scsiSwapSimHit L' 8 1 = true := by
  decide

/-! ## Commands -/

variable {q : SdAttrs} {d : SdDisk} {rq : FsRequest} {c : Cdb} {block count : ℕ}

/-- The number of sectors the command of `sd_prep_fn` is for: the 10-byte form has room for 16 bits, and the
6-byte form is not chosen for more than 0xff. -/
def settledCount (q : SdAttrs) (d : SdDisk) (rq : FsRequest) : ℕ :=
  if d.use16ForRw then thisCount q d rq else min (thisCount q d rq) 0xffff

theorem sectorFromScmd_cdb10_lt (w : Bool) (flags block count : ℕ) :
    (sectorFromScmd (cdb10 (if w then opWrite10 else opRead10) flags block count)).1 < 2 ^ 32 := by
  cases w <;>
  · simp only [sectorFromScmd, cdb10, Matrix.cons_val, BitVec.toNat_ofNat, Nat.shiftRight_eq_div_pow, opWrite6,
      opRead6, opWrite10, opRead10]
    norm_num
    omega

/-- Each of the three forms keeps the direction. -/
theorem rwCommand_action (h : rwCommand q d rq block count = some c) :
    scmdGetAction c = if rq.isWrite then .write else .read := by
  unfold rwCommand at h
  dsimp only at h
  split at h
  · obtain rfl := Option.some.inj h
    cases rq.isWrite <;> rfl
  split at h
  · obtain rfl := Option.some.inj h
    cases rq.isWrite <;> rfl
  split at h
  · exact absurd h (by simp)
  · obtain rfl := Option.some.inj h
    cases rq.isWrite <;> rfl

/-- The range can be read back, unless the 10-byte form has no room for the block. -/
theorem rwCommand_decodes (h : rwCommand q d rq block count = some c) (hb : block < 2 ^ 64)
    (hc : count < 2 ^ 32) :
    sectorFromScmd c = (block, if d.use16ForRw then count else min count 0xffff) ↔
      (d.use16ForRw = true ∨ block < 2 ^ 32) := by
  unfold rwCommand at h
  dsimp only at h
  split at h
  · rename_i h16
    obtain rfl := Option.some.inj h
    rw [sectorFromScmd_cdb16 _ _ hb hc, if_pos h16]
    exact iff_of_true rfl (Or.inl h16)
  rename_i h16
  rw [if_neg h16]
  split at h
  · obtain rfl := Option.some.inj h
    constructor
    · intro hdec
      have hlt := sectorFromScmd_cdb10_lt rq.isWrite
        ((if q.hostDif then 1 <<< 5 else 0) ||| (if rq.fua then 8 else 0)) block (min count 0xffff)
      rw [hdec] at hlt
      exact Or.inr hlt
    · intro hor
      exact sectorFromScmd_cdb10 _ _ (hor.resolve_left h16) (by omega)
  rename_i hshort
  simp only [not_or] at hshort
  split at h
  · exact absurd h (by simp)
  · obtain rfl := Option.some.inj h
    rw [sectorFromScmd_cdb6 _ (by omega) (by omega), Nat.min_eq_left (by omega)]
    exact iff_of_true rfl (Or.inr (by omega))

theorem sdPrepFn_accepts (h : sdPrepFn q d rq = some c) :
    u64 (rq.pos.toNat + rq.sectors.toNat) ≤ d.gdCapacity := by
  unfold sdPrepFn at h
  split at h
  · exact absurd h (by simp)
  · rename_i hin
    rw [not_or] at hin
    exact Nat.le_of_not_lt hin.2

theorem thisCount_lt (hd : d.sectorSize = 512) : thisCount q d rq < 2 ^ 32 := by
  unfold thisCount u32
  rw [hd]
  split_ifs <;> omega

/-- **The simulator decodes what the disk driver encodes**, for every request it accepts on a disk with
512-byte sectors whose capacity was read, exactly if the 16-byte form is in use or the request does not run
past 2^64. -/
theorem scmd_decodes_iff {q q' : SdAttrs} {a : RcAnswers} {e d : SdDisk} {rq : FsRequest} {c : Cdb}
    (hread : (sdReadSize q a e).1.isSome = true) (hd : d = sdRevalidateDisk q a e) (hsize : d.sectorSize = 512)
    (hprep : sdPrepFn q' d rq = some c) :
    (scmdGetAction c = (if rq.isWrite then .write else .read) ∧
        sectorFromScmd c = (rq.pos.toNat, settledCount q' d rq)) ↔
      (d.use16ForRw = true ∨ rq.pos.toNat + rq.sectors.toNat < 2 ^ 64) := by
  have hscan : d.Scanned := hd ▸ scanned_of_read hread
  obtain ⟨block, count, hr, hcmd⟩ := sdPrepFn_range hprep
  rw [hsize] at hr
  obtain ⟨rfl, rfl⟩ := Prod.mk.inj (Option.some.inj hr)
  have hact := rwCommand_action hcmd
  have hdec := rwCommand_decodes hcmd rq.pos.isLt (thisCount_lt hsize)
  unfold settledCount
  rw [and_iff_right hact, hdec]
  cases h16 : d.use16ForRw with
  | true => simp
  | false =>
    -- the capacity has 32 bits, and the end of the request, as it was computed, is not above it
    have hcap := hscan.short h16 (by omega)
    have hacc := sdPrepFn_accepts hprep
    have hp := rq.pos.isLt
    have hs := rq.sectors.isLt
    unfold u64 at hacc
    rw [hsize] at hcap
    simp only [Bool.false_eq_true, false_or]
    omega

/-- A write of 4 sectors. -/
theorem scmd_decodes_write :
    let d := sdRevalidateDisk .plain (.disk 4000000 512) .probed
    ∃ c, sdPrepFn .plain d ⟨true, 100, 4, false⟩ = some c ∧ scmdGetAction c = .write ∧
      sectorFromScmd c = (100, 4) := by
  intro d
  have hsome : (sdPrepFn .plain d ⟨true, 100, 4, false⟩).isSome = true := by decide +kernel
  obtain ⟨c, hc⟩ := Option.isSome_iff_exists.1 hsome
  refine ⟨c, hc, ?_⟩
  exact (scmd_decodes_iff (a := .disk 4000000 512) (e := .probed) (by decide +kernel) rfl
    (by decide +kernel) hc).2
    (Or.inr (by decide))

/-- **A card reader** that answers READ CAPACITY(10) only, with the largest address: its disk counts as empty,
with 512-byte sectors. The end of a request for the last 8 sectors below 2^64 is 0, so it is accepted, and its
address loses its upper half. -/
theorem scmd_loses_address :
    let q := { SdAttrs.plain with noReadCapacity16 := true }
    let a : RcAnswers := ⟨.failed, .ok 0xffffffff 512⟩
    let d := sdRevalidateDisk q a .probed
    (sdReadSize q a .probed).1.isSome = true ∧ d.sectorSize = 512 ∧
      (sdPrepFn q d ⟨false, .ofNat 64 (2 ^ 64 - 8), 8, false⟩).map sectorFromScmd = some (2 ^ 32 - 8, 8) := by
  decide +kernel

end ScsiSwap
