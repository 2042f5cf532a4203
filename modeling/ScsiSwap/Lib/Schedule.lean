import ScsiSwap.Lib.Runs

/-!
# Requests that a scheduler picks

`pick s` is the request that is served next in state `s`, or `none` if there is nothing left to do.

* `runPick serve pick n`: up to `n` requests, each picked in the state the last one left;
* `runAll_append`: two runs, one after the other, are one;
* `runPick_runAll`: this is a run of the requests that were picked;
* `runPick_drain`: if every request that is picked takes something off a measure, nothing is left to do in the
  end.
-/

namespace StateOption

variable {σ ο ρ : Type} {serve : ο → StateT σ Option ρ} {pick : σ → Option ο}

/-- Serve what `pick` names, `n` times at most. -/
def runPick (serve : ο → StateT σ Option ρ) (pick : σ → Option ο) : ℕ → StateT σ Option (List ρ)
  | 0 => pure []
  | n + 1 => do
    let s ← get
    match pick s with
    | none => pure []
    | some o =>
      let r ← serve o
      let rs ← runPick serve pick n
      pure (r :: rs)

theorem runAll_append : ∀ {os os' : List ο} {rs rs' : List ρ} {s t u : σ},
    (runAll serve os).run s = some (rs, t) → (runAll serve os').run t = some (rs', u) →
    (runAll serve (os ++ os')).run s = some (rs ++ rs', u) := by
  intro os
  induction os with
  | nil =>
    intro os' rs rs' s t u h h'
    obtain ⟨rfl, rfl⟩ := run_pure_iff.1 h
    exact h'
  | cons o os ih =>
    intro os' rs rs' s t u h h'
    obtain ⟨r, s₁, h1, h2⟩ := run_bind_iff.1 h
    obtain ⟨rs₁, s₂, h3, h4⟩ := run_bind_iff.1 h2
    obtain ⟨rfl, rfl⟩ := run_pure_iff.1 h4
    exact (run_bind_of h1).trans (run_bind_of (ih h3 h'))

theorem runPick_runAll : ∀ {n : ℕ} {rs : List ρ} {s s' : σ}, (runPick serve pick n).run s = some (rs, s') →
    ∃ os, (runAll serve os).run s = some (rs, s') ∧ ∀ o ∈ os, ∃ t, pick t = some o := by
  intro n
  induction n with
  | zero =>
    intro rs s s' h
    exact ⟨[], h, by simp⟩
  | succ n ih =>
    intro rs s s' h
    unfold runPick at h
    rw [run_get_bind] at h
    cases ho : pick s with
    | none =>
      rw [ho] at h
      exact ⟨[], h, by simp⟩
    | some o =>
      rw [ho] at h
      obtain ⟨r, s₁, h1, h2⟩ := run_bind_iff.1 h
      obtain ⟨rs', s₂, h3, h4⟩ := run_bind_iff.1 h2
      obtain ⟨os, hos, hpicked⟩ := ih h3
      exact ⟨o :: os, (run_bind_of h1).trans ((run_bind_of hos).trans h4),
        List.forall_mem_cons.2 ⟨⟨s, ho⟩, hpicked⟩⟩

/-- **A measure that every picked request makes smaller** bounds the number of requests. -/
theorem runPick_drain {P : σ → Prop} {μ : σ → ℕ}
    (hstep : ∀ {s o}, P s → pick s = some o → ∃ r s', (serve o).run s = some (r, s') ∧ P s' ∧ μ s' < μ s) :
    ∀ n {s : σ}, P s → μ s ≤ n → ∃ rs s', (runPick serve pick n).run s = some (rs, s') ∧ P s' ∧
      pick s' = none := by
  intro n
  induction n with
  | zero =>
    intro s hs hn
    refine ⟨[], s, rfl, hs, ?_⟩
    by_contra hne
    obtain ⟨o, ho⟩ := Option.ne_none_iff_exists'.1 hne
    obtain ⟨r, s', -, -, hlt⟩ := hstep hs ho
    omega
  | succ n ih =>
    intro s hs hn
    unfold runPick
    rw [run_get_bind]
    cases ho : pick s with
    | none => exact ⟨[], s, rfl, hs, ho⟩
    | some o =>
      obtain ⟨r, s₁, h1, hs₁, hlt⟩ := hstep hs ho
      obtain ⟨rs, s', h2, hs', hnone⟩ := ih hs₁ (by omega)
      exact ⟨r :: rs, s', (run_bind_of h1).trans (run_bind_of h2), hs', hnone⟩

end StateOption
