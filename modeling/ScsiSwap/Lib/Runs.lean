import ScsiSwap.Lib.Exec

/-!
# Runs of a system that serves requests one after another

`serve : ο → StateT σ Option ρ` answers a request of type `ο` with a reply of type `ρ`.

* `runAll serve os`: the requests `os` in order, with their replies;
* `runAll_trace`: such a run, taken apart into the states between the requests;
* `trace_inv`: what one request preserves, a run preserves;
* `trace_last`: what one request sets up and the later ones leave alone is found at the end;
* `Reach serve P s₀`: the states reached from `s₀` by requests that meet `P` when they are served.
-/

namespace StateOption

variable {σ ο ρ : Type}

/-- Serve the requests in order. -/
def runAll (serve : ο → StateT σ Option ρ) : List ο → StateT σ Option (List ρ)
  | [] => pure []
  | o :: os => do
    let r ← serve o
    let rs ← runAll serve os
    pure (r :: rs)

/-- The states of a run: `st i` is the state before request `i`. -/
structure Trace (serve : ο → StateT σ Option ρ) (os : List ο) (rs : List ρ) (st : ℕ → σ) : Prop where
  length : rs.length = os.length
  step : ∀ i (hi : i < os.length) (hr : i < rs.length), (serve os[i]).run (st i) = some (rs[i], st (i + 1))

variable {serve : ο → StateT σ Option ρ} {os : List ο} {rs : List ρ} {st : ℕ → σ}

theorem runAll_trace : ∀ {os : List ο} {rs : List ρ} {s s' : σ}, (runAll serve os).run s = some (rs, s') →
    ∃ st, Trace serve os rs st ∧ st 0 = s ∧ st os.length = s' := by
  intro os
  induction os with
  | nil =>
    intro rs s s' h
    obtain ⟨rfl, rfl⟩ := run_pure_iff.1 h
    exact ⟨fun _ => s', ⟨rfl, fun i hi => absurd hi (by simp)⟩, rfl, rfl⟩
  | cons o os ih =>
    intro rs s s' h
    obtain ⟨r, s₁, h1, h2⟩ := run_bind_iff.1 h
    obtain ⟨rs', s₂, h3, h4⟩ := run_bind_iff.1 h2
    obtain ⟨rfl, rfl⟩ := run_pure_iff.1 h4
    obtain ⟨st, ht, h0, hn⟩ := ih h3
    refine ⟨fun i => if i = 0 then s else st (i - 1), ⟨by simp [ht.length], ?_⟩, rfl, by simpa using hn⟩
    intro i hi hr
    cases i with
    | zero => simpa [h0] using h1
    | succ i => simpa using ht.step i (by simpa using hi) (by simpa using hr)

/-- A property that every request preserves holds at every state of the run. -/
theorem trace_inv (ht : Trace serve os rs st) {P : σ → Prop} (h0 : P (st 0))
    (hstep : ∀ i, i < os.length → i < rs.length → P (st i) → P (st (i + 1))) :
    ∀ i ≤ os.length, P (st i) := by
  intro i
  induction i with
  | zero => intro _; exact h0
  | succ i ih => intro hi; exact hstep i hi (by rw [ht.length]; exact hi) (ih (by omega))

/-- A value `f` that request `i` set and the requests after it left alone. -/
theorem trace_last {β : Type} {f : σ → β} {b : β} {i : ℕ} (hi : f (st (i + 1)) = b) :
    ∀ j, i < j → (∀ k, i < k → k < j → f (st (k + 1)) = f (st k)) → f (st j) = b := by
  intro j
  induction j with
  | zero => intro h; omega
  | succ j ih =>
    intro hij hk
    rcases Nat.lt_succ_iff_lt_or_eq.1 hij with h | h
    · rw [hk j h (by omega)]
      exact ih h fun k h1 h2 => hk k h1 (by omega)
    · rw [← h]; exact hi

/-- The states reached from `s₀` by requests that meet `P` in the state they are served in. -/
inductive Reach (serve : ο → StateT σ Option ρ) (P : σ → ο → Prop) (s₀ : σ) : σ → Prop
  | start : Reach serve P s₀ s₀
  | step {s s' : σ} {o : ο} {r : ρ} (h : Reach serve P s₀ s) (hP : P s o)
      (hs : (serve o).run s = some (r, s')) : Reach serve P s₀ s'

theorem Reach.inv {P : σ → ο → Prop} {s₀ s : σ} (h : Reach serve P s₀ s) {I : σ → Prop} (h0 : I s₀)
    (hstep : ∀ s o r s', I s → P s o → (serve o).run s = some (r, s') → I s') : I s := by
  induction h with
  | start => exact h0
  | step _ hP hs ih => exact hstep _ _ _ _ ih hP hs

theorem Reach.runAll {P : σ → ο → Prop} {s₀ : σ} : ∀ {os : List ο} {rs : List ρ} {s s' : σ}, Reach serve P s₀ s →
    (∀ o ∈ os, ∀ t, P t o) → (runAll serve os).run s = some (rs, s') → Reach serve P s₀ s' := by
  intro os
  induction os with
  | nil =>
    intro rs s s' hs _ h
    obtain ⟨-, rfl⟩ := run_pure_iff.1 h
    exact hs
  | cons o os ih =>
    intro rs s s' hs hP h
    obtain ⟨r, s₁, h1, h2⟩ := run_bind_iff.1 h
    obtain ⟨rs', s₂, h3, h4⟩ := run_bind_iff.1 h2
    obtain ⟨-, rfl⟩ := run_pure_iff.1 h4
    exact ih (.step hs (hP o List.mem_cons_self s) h1) (fun o ho => hP o (List.mem_cons_of_mem _ ho)) h3

end StateOption
