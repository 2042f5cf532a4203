import ScsiSwap.Lib.Runs

/-!
# A system that serves requests, and what it is for

`spec o a r b` says what a request `o` is for: from the abstract state `a` the reply `r` and the abstract state
`b` are right. Several replies may be.

* `Allowed spec os rs a b`: the replies `rs` to the requests `os` are right, one after another;
* `Refines`: the system gives right replies, and its state goes along with the abstract one;
* `Refines.run`: so it does in every run;
* `Realizes`, `Realizes.run`: the same for a system that also has to come to the end of every request.
-/

namespace StateOption

variable {σ ο ρ α : Type}

/-- The replies `rs` to the requests `os` are right, and lead from `a` to `b`. -/
inductive Allowed (spec : ο → α → ρ → α → Prop) : List ο → List ρ → α → α → Prop
  | nil (a : α) : Allowed spec [] [] a a
  | cons {o : ο} {os : List ο} {r : ρ} {rs : List ρ} {a b c : α} (h : spec o a r b)
      (hs : Allowed spec os rs b c) :
      Allowed spec (o :: os) (r :: rs) a c

/-- Right replies to all requests with `P`, from every state that stands for an abstract one. -/
structure Refines (serve : ο → StateT σ Option ρ) (spec : ο → α → ρ → α → Prop) (P : ο → Prop)
    (sim : σ → α → Prop) :
    Prop where
  step : ∀ {o s a r s'}, P o → sim s a → (serve o).run s = some (r, s') → ∃ b, spec o a r b ∧ sim s' b

/-- The same, and no request ends the system. -/
structure Realizes (serve : ο → StateT σ Option ρ) (spec : ο → α → ρ → α → Prop) (P : ο → Prop)
    (sim : σ → α → Prop) :
    Prop extends Refines serve spec P sim where
  finish : ∀ {o s a}, P o → sim s a → ∃ r s', (serve o).run s = some (r, s')

variable {serve : ο → StateT σ Option ρ} {spec : ο → α → ρ → α → Prop} {P : ο → Prop} {sim : σ → α → Prop}

/-- **The replies of a run are right.** -/
theorem Refines.run (h : Refines serve spec P sim) : ∀ {os : List ο} {rs : List ρ} {s s' : σ} {a : α},
    (∀ o ∈ os, P o) → sim s a → (runAll serve os).run s = some (rs, s') →
    ∃ b, Allowed spec os rs a b ∧ sim s' b := by
  intro os
  induction os with
  | nil =>
    intro rs s s' a _ hs hrun
    obtain ⟨rfl, rfl⟩ := run_pure_iff.1 hrun
    exact ⟨a, .nil a, hs⟩
  | cons o os ih =>
    intro rs s s' a hP hs hrun
    obtain ⟨hPo, hPos⟩ := List.forall_mem_cons.1 hP
    obtain ⟨r, s₁, h1, h2⟩ := run_bind_iff.1 hrun
    obtain ⟨rs', s₂, h3, h4⟩ := run_bind_iff.1 h2
    obtain ⟨rfl, rfl⟩ := run_pure_iff.1 h4
    obtain ⟨b, hb, hs₁⟩ := h.step hPo hs h1
    obtain ⟨c, hc, hs'⟩ := ih hPos hs₁ h3
    exact ⟨c, .cons hb hc, hs'⟩

/-- **Every run comes to its end**, with right replies. -/
theorem Realizes.run (h : Realizes serve spec P sim) :
    ∀ {os : List ο} {s : σ} {a : α}, (∀ o ∈ os, P o) → sim s a →
    ∃ rs s' b, (runAll serve os).run s = some (rs, s') ∧ Allowed spec os rs a b ∧ sim s' b := by
  intro os
  induction os with
  | nil =>
    intro s a _ hs
    exact ⟨[], s, a, rfl, .nil a, hs⟩
  | cons o os ih =>
    intro s a hP hs
    obtain ⟨hPo, hPos⟩ := List.forall_mem_cons.1 hP
    obtain ⟨r, s₁, h1⟩ := h.finish hPo hs
    obtain ⟨b, hb, hs₁⟩ := h.step hPo hs h1
    obtain ⟨rs, s', c, h2, hc, hs'⟩ := ih hPos hs₁
    exact ⟨r :: rs, s', c, (run_bind_of h1).trans (run_bind_of h2), .cons hb hc, hs'⟩

end StateOption
