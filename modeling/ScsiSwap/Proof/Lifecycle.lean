import ScsiSwap.Proof.Divert
import ScsiSwap.Spec.Lifecycle

/-!
# No use of a core after it is freed

`scsi_swap_destroy` waits for the items that are counted. It does not wait for items in the queue, for items
that have been started but not counted, or for calls that hold the core; it gives up after 100 rounds; and it
leaves `swap->enable` set, so that new calls find the core after it is freed.

* `Life.Careful`: callers and queue are quiet when `scsi_swap_destroy` is called, and no call comes later; the
  counted items are done in time;
* `core_unused_after_free`: then the core is not used after it is freed;
* `core_used_after_free`: otherwise it is.
-/

namespace ScsiSwap

open StateOption

variable {E : Env} {l l' : Life}

/-! ## The invariant -/

/-- Nobody holds the core, and no item waits to be counted. -/
structure Life.Quiet (l : Life) : Prop where
  lookups : l.lookups = 0
  submits : l.submits = []
  queue : l.queue = []
  started : l.started = []

/-- What may be done with a core: `scsi_swap_destroy` is called while no call is under way and nothing is
queued or about to be counted, no call finds the core after that, and no item is left running in the last round
of the wait. -/
def Life.Careful (l : Life) : Event → Prop
  | .lookup b => bioGetScsiSwap (b.seen l.enable) = true → l.teardown = .none
  | .submit c => bioGetScsiSwap (c.bdev.seen l.enable) = true → l.teardown = .none
  | .destroy => l.Quiet
  | .poll => ∀ users, l.teardown = .waiting 99 users → l.running = []
  | _ => True

structure Life.Inv (l : Life) : Prop where
  user : l.user = l.running.length
  /-- From the call of `scsi_swap_destroy` on it is quiet. -/
  quiet : l.teardown ≠ .none → l.Quiet
  /-- The items that still run were there when `scsi_swap_destroy` looked, and none was at its last look. -/
  waiting : ∀ i users, l.teardown = .waiting i users → l.running.length ≤ users ∧ i ≤ 100 ∧ (i = 100 → users = 0)
  freed : l.teardown = .freed → l.running = []

theorem length_eraseIdx_some {α : Type} {xs : List α} {i : ℕ} {x : α} (h : xs[i]? = some x) :
    (xs.eraseIdx i).length + 1 = xs.length := by
  obtain ⟨hi, -⟩ := List.getElem?_eq_some_iff.1 h
  rw [List.length_eraseIdx_of_lt hi]
  omega

/-- A step that leaves the teardown and the counted items alone. -/
theorem Life.Inv.keep (h : l.Inv) (hu : l'.user = l.user) (hr : l'.running = l.running)
    (ht : l'.teardown = l.teardown) (hq : l.teardown ≠ .none → l'.Quiet) : l'.Inv := by
  refine ⟨by rw [hu, hr]; exact h.user, fun hne => hq (ht ▸ hne), fun i users hw => ?_, fun hf => ?_⟩
  · rw [hr]
    exact h.waiting i users (ht ▸ hw)
  · rw [hr]
    exact h.freed (ht ▸ hf)

/-- An item is counted, while nobody waits. -/
theorem Life.Inv.counted (h : l.Inv) (hnone : l.teardown = .none) (o : Request) (hu : l'.user = l.user + 1)
    (hr : l'.running = l.running ++ [o]) (ht : l'.teardown = l.teardown) : l'.Inv := by
  rw [hnone] at ht
  refine ⟨?_, fun hne => absurd ht hne, fun j users hw => ?_, fun hf => ?_⟩
  · rw [hu, hr, List.length_append, h.user]
    rfl
  · exact absurd (ht.symm.trans hw) (by simp)
  · exact absurd (ht.symm.trans hf) (by simp)

/-- An item is done. -/
theorem Life.Inv.done (h : l.Inv) {i : ℕ} {o : Request} (hi : l.running[i]? = some o) (hu : l'.user = l.user - 1)
    (hr : l'.running = l.running.eraseIdx i) (ht : l'.teardown = l.teardown)
    (hq : l.teardown ≠ .none → l'.Quiet) : l'.Inv := by
  have hlen := length_eraseIdx_some hi
  have huser := h.user
  refine ⟨by rw [hu, hr]; omega, fun hne => hq (ht ▸ hne), fun j users hw => ?_, fun hf => ?_⟩
  · obtain ⟨h1, h2⟩ := h.waiting j users (ht ▸ hw)
    exact ⟨by rw [hr]; omega, h2⟩
  · rw [h.freed (ht ▸ hf)] at hi
    exact absurd hi (by simp)

/-- `scsi_swap_core_destroy` reads the number of users, in round `i`; in the last one there is none. -/
theorem Life.Inv.looked (h : l.Inv) (hq : l'.Quiet) {i : ℕ} (hi : i ≤ 100) (hlast : i = 100 → l.running = [])
    (hu : l'.user = l.user) (hr : l'.running = l.running) (ht : l'.teardown = .waiting i l.user) : l'.Inv := by
  refine ⟨by rw [hu, hr]; exact h.user, fun _ => hq, fun j users hw => ?_, fun hf => ?_⟩
  · obtain ⟨rfl, rfl⟩ := Teardown.waiting.inj (ht.symm.trans hw)
    refine ⟨hr ▸ h.user.ge, hi, fun he => ?_⟩
    rw [h.user, hlast he]
    rfl
  · exact absurd (ht.symm.trans hf) (by simp)

/-- The core is freed: the wait has ended because there was no user, in the last round or before it. -/
theorem Life.Inv.released (h : l.Inv) {i users : ℕ} (hw : l.teardown = .waiting i users)
    (hend : ¬ (i < 100 ∧ users ≠ 0)) (hq : l'.Quiet) (hu : l'.user = l.user) (hr : l'.running = l.running)
    (ht : l'.teardown = .freed) : l'.Inv := by
  obtain ⟨hrun, hle, hlast⟩ := h.waiting i users hw
  have hzero : users = 0 := by omega
  refine ⟨by rw [hu, hr]; exact h.user, fun _ => hq, fun j users hw => ?_, fun _ => ?_⟩
  · exact absurd (ht.symm.trans hw) (by simp)
  · rw [hr]
    exact List.length_eq_zero_iff.1 (Nat.le_zero.1 (hzero ▸ hrun))

theorem Life.Inv.step {e : Event} (h : l.Inv) (hc : l.Careful e) (hs : (Life.step E e).run l = some ((), l')) :
    l'.Inv := by
  change Life.step E e l = some ((), l') at hs
  unfold Life.step at hs
  cases e with
  | lookup b =>
    dsimp only at hs
    split at hs <;> obtain ⟨-, rfl⟩ := Prod.mk.inj (Option.some.inj hs)
    · rename_i hfound
      exact h.keep rfl rfl rfl fun hne => absurd (hc hfound) hne
    · exact h
  | lookupDone =>
    dsimp only at hs
    split at hs
    · exact absurd hs (by simp)
    obtain ⟨-, rfl⟩ := Prod.mk.inj (Option.some.inj hs)
    refine h.keep rfl rfl rfl fun hne => ?_
    obtain ⟨h1, h2, h3, h4⟩ := h.quiet hne
    exact ⟨by show l.lookups - 1 = 0; omega, h2, h3, h4⟩
  | submit c =>
    dsimp only at hs
    split at hs <;> obtain ⟨-, rfl⟩ := Prod.mk.inj (Option.some.inj hs)
    · rename_i hfound
      exact h.keep rfl rfl rfl fun hne => absurd (hc hfound) hne
    · exact h
  | submitDone i =>
    -- there is no call to return once it is quiet
    dsimp only at hs
    split at hs
    · exact absurd hs (by simp)
    rename_i c hi
    split at hs
    · exact absurd hs (by simp)
    obtain ⟨-, rfl⟩ := Prod.mk.inj (Option.some.inj hs)
    refine h.keep rfl rfl rfl fun hne => ?_
    rw [(h.quiet hne).submits] at hi
    exact absurd hi (by simp)
  | start i =>
    dsimp only at hs
    split at hs
    · exact absurd hs (by simp)
    rename_i o hi
    obtain ⟨-, rfl⟩ := Prod.mk.inj (Option.some.inj hs)
    refine h.keep rfl rfl rfl fun hne => ?_
    rw [(h.quiet hne).queue] at hi
    exact absurd hi (by simp)
  | enter i =>
    dsimp only at hs
    split at hs
    · rename_i o ok w hi hk
      have hnone : l.teardown = .none := by
        by_contra hne
        rw [(h.quiet hne).started] at hi
        exact absurd hi (by simp)
      split at hs <;> obtain ⟨-, rfl⟩ := Prod.mk.inj (Option.some.inj hs)
      · exact h.counted hnone o rfl rfl rfl
      · exact h.keep rfl rfl rfl fun hne => absurd hnone hne
    · exact absurd hs (by simp)
  | finish i =>
    dsimp only at hs
    split at hs
    · exact absurd hs (by simp)
    rename_i o hi
    split at hs
    · exact absurd hs (by simp)
    obtain ⟨-, rfl⟩ := Prod.mk.inj (Option.some.inj hs)
    refine h.done hi rfl rfl rfl fun hne => ?_
    obtain ⟨h1, h2, h3, h4⟩ := h.quiet hne
    exact ⟨h1, h2, h3, h4⟩
  | destroy =>
    obtain ⟨h1, h2, h3, h4⟩ := hc
    dsimp only at hs
    split at hs
    · split at hs
      · exact absurd hs (by simp)
      obtain ⟨-, rfl⟩ := Prod.mk.inj (Option.some.inj hs)
      exact h.looked ⟨h1, h2, h3, h4⟩ (Nat.zero_le _) (fun h0 => absurd h0 (by simp)) rfl rfl rfl
    · exact absurd hs (by simp)
  | poll =>
    dsimp only at hs
    split at hs
    · rename_i i users ht
      obtain ⟨h1, h2, h3, h4⟩ := h.quiet (by rw [ht]; simp)
      split at hs
      · rename_i hgo
        obtain ⟨-, rfl⟩ := Prod.mk.inj (Option.some.inj hs)
        refine h.looked ⟨h1, h2, h3, h4⟩ hgo.1 (fun hlast => ?_) rfl rfl rfl
        obtain rfl : i = 99 := by omega
        exact hc users ht
      · exact absurd hs (by simp)
    · exact absurd hs (by simp)
  | free =>
    dsimp only at hs
    split at hs
    · rename_i i users ht
      obtain ⟨h1, h2, h3, h4⟩ := h.quiet (by rw [ht]; simp)
      split at hs
      · exact absurd hs (by simp)
      rename_i hend
      obtain ⟨-, rfl⟩ := Prod.mk.inj (Option.some.inj hs)
      exact h.released ht hend ⟨h1, h2, h3, h4⟩ rfl rfl rfl
    · exact absurd hs (by simp)

/-! ## Runs -/

/-- After the core is freed no item is on it, queued for it or running, and no call holds it. -/
def Life.Safe (l : Life) : Prop := l.teardown = .freed → l.Quiet ∧ l.running = []

/-- **No use of a freed core**, in any run of careful steps of a core in use. -/
theorem core_unused_after_free {w : World} (h : Reach (Life.step E) Life.Careful (Life.fresh w) l) : l.Safe := by
  have hstart : (Life.fresh w).Inv :=
    ⟨rfl, fun hne => absurd rfl hne, fun i users h => absurd h (by simp [Life.fresh]),
      fun h => absurd h (by simp [Life.fresh])⟩
  have hinv : l.Inv := h.inv hstart fun t e r t' ht hc hs => ht.step hc hs
  exact fun hf => ⟨hinv.quiet (by rw [hf]; simp), hinv.freed hf⟩

/-- A core for a disk of 1000 sectors, on a device without failures. -/
def Life.idle : Life := .fresh { World.blank with core := { World.blank.core with sectorReserveStart := 1000 } }

/-- A failed write of sector 4. -/
def SwapCall.failedWrite : SwapCall := ⟨.disk 1000, ⟨true, 4, 512, false⟩, 4, 512, 4, fun _ _ => 7⟩

/-- An item is running when `scsi_swap_destroy` is called. It is waited for. -/
theorem core_unused_after_free_waited :
    ∃ l, Reach (Life.step (Env.refusing fun _ _ => false)) Life.Careful .idle l ∧
      l.teardown = .freed ∧ l.Safe := by
  have hrun : (((do
      let _ ← runAll (Life.step (Env.refusing fun _ _ => false)) [.submitDone 0, .start 0, .enter 0]
      let l ← get
      let _ ← Life.step (Env.refusing fun _ _ => false) .destroy
      let _ ← Life.step (Env.refusing fun _ _ => false) (.finish 0)
      let m ← get
      let _ ← Life.step (Env.refusing fun _ _ => false) .poll
      let _ ← Life.step (Env.refusing fun _ _ => false) .free
      let k ← get
      return decide (l.lookups = 0 ∧ l.submits.length = 0 ∧ l.queue.length = 0 ∧ l.started.length = 0 ∧
        m.teardown = .waiting 0 1 ∧ k.teardown = .freed)) : StateT Life Option Bool).run
      { Life.idle with submits := [.failedWrite] }).map Prod.fst = some true := by decide +kernel
  obtain ⟨l', h⟩ := run_of_result hrun
  obtain ⟨rs, l, h1, h⟩ := run_bind_iff.1 h
  rw [run_get_bind] at h
  obtain ⟨u, l₁, h2, h⟩ := run_bind_iff.1 h
  obtain ⟨u, m, h3, h⟩ := run_bind_iff.1 h
  rw [run_get_bind] at h
  obtain ⟨u, m₁, h4, h⟩ := run_bind_iff.1 h
  obtain ⟨u, k, h5, h⟩ := run_bind_iff.1 h
  rw [run_get_bind] at h
  obtain ⟨e, rfl⟩ := run_pure_iff.1 h
  obtain ⟨e1, e2, e3, e4, e5, e6⟩ := of_decide_eq_true e.symm
  have hsub : Reach (Life.step (Env.refusing fun _ _ => false)) Life.Careful .idle
      { Life.idle with submits := [.failedWrite] } :=
    .step (o := .submit .failedWrite) (r := ()) .start (by simp [Life.Careful, Life.idle, Life.fresh]) rfl
  have hcalled := hsub.runAll (by
    intro e he t
    simp only [List.mem_cons, List.not_mem_nil, or_false] at he
    rcases he with rfl | rfl | rfl <;> trivial) h1
  have hquiet : l.Careful .destroy :=
    ⟨e1, List.length_eq_zero_iff.1 e2, List.length_eq_zero_iff.1 e3, List.length_eq_zero_iff.1 e4⟩
  have hpoll : m.Careful .poll := fun users hw => absurd (e5.symm.trans hw) (by simp)
  have hdone := hcalled.step hquiet h2 |>.step (o := Event.finish 0) (by trivial) h3
  have hfree := hdone.step hpoll h4 |>.step (o := Event.free) (by trivial) h5
  exact ⟨_, hfree, e6, core_unused_after_free hfree⟩

/-- **A core is used after it is freed**: by a lookup, which still finds it, and by an item that was
in the queue, and so not counted, when `scsi_swap_destroy` looked. -/
theorem core_used_after_free :
    (∃ rs l, (runAll (Life.step (Env.refusing fun _ _ => false))
      [.destroy, .free, .lookup (.disk 1000)]).run .idle = some (rs, l) ∧
      l.teardown = .freed ∧ l.lookups = 1 ∧ ¬ l.Safe) ∧
    ∃ rs l, (runAll (Life.step (Env.refusing fun _ _ => false))
      [.submit .failedWrite, .submitDone 0, .destroy, .free, .start 0]).run .idle = some (rs, l) ∧
      l.teardown = .freed ∧ l.started.length = 1 ∧ ¬ l.Safe := by
  constructor
  · have hrun : (((do
        let rs ← runAll (Life.step (Env.refusing fun _ _ => false)) [.destroy, .free, .lookup (.disk 1000)]
        let l ← get
        return decide (l.teardown = .freed ∧ l.lookups = 1)) : StateT Life Option Bool).run
        .idle).map Prod.fst = some true := by decide +kernel
    obtain ⟨l', h⟩ := run_of_result hrun
    obtain ⟨rs, l, h1, h⟩ := run_bind_iff.1 h
    rw [run_get_bind] at h
    obtain ⟨e, rfl⟩ := run_pure_iff.1 h
    obtain ⟨e1, e2⟩ := of_decide_eq_true e.symm
    refine ⟨rs, _, h1, e1, e2, fun hs => ?_⟩
    exact absurd ((hs e1).1.lookups) (by rw [e2]; decide)
  · have hrun : (((do
        let rs ← runAll (Life.step (Env.refusing fun _ _ => false))
          [.submit .failedWrite, .submitDone 0, .destroy, .free, .start 0]
        let l ← get
        return decide (l.teardown = .freed ∧ l.started.length = 1)) : StateT Life Option Bool).run
        .idle).map Prod.fst = some true := by decide +kernel
    obtain ⟨l', h⟩ := run_of_result hrun
    obtain ⟨rs, l, h1, h⟩ := run_bind_iff.1 h
    rw [run_get_bind] at h
    obtain ⟨e, rfl⟩ := run_pure_iff.1 h
    obtain ⟨e1, e2⟩ := of_decide_eq_true e.symm
    refine ⟨rs, _, h1, e1, e2, fun hs => ?_⟩
    rw [(hs e1).1.started] at e2
    exact absurd e2 (by decide)

end ScsiSwap
