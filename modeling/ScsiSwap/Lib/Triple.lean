import ScsiSwap.Lib.Runs

/-!
# Pre- and postconditions of code that has to finish

`Ensures P x Q`: from every state in `P` the code `x` finishes, and result and state are in `Q`. In contrast to
`Carries` this rules out that `x` dies.

* `Ensures.pure`, `.bind`, `.get_bind`, `.set_bind`, `.modify`, `.ite`: the rules for the parts of a program;
* `Ensures.mono`: the rule of consequence;
* `Ensures.forM`: the invariant rule for a loop over a list;
* `Ensures.runAll`: what every request keeps, a run keeps, and it comes to its end;
* `Upholds P x`: `x` may die, but it does not finish outside of `P` if it started in `P`.
-/

namespace StateOption

variable {σ α β ι : Type}

/-- From every state in `P` the code finishes, with a result and a state in `Q`. -/
structure Ensures (P : σ → Prop) (x : StateT σ Option α) (Q : α → σ → Prop) : Prop where
  run : ∀ s, P s → ∃ a s', x.run s = some (a, s') ∧ Q a s'

namespace Ensures

variable {P P' : σ → Prop} {x y : StateT σ Option α} {Q Q' : α → σ → Prop}

theorem mono (h : Ensures P x Q) (hP : ∀ s, P' s → P s) (hQ : ∀ a s, Q a s → Q' a s) : Ensures P' x Q' := by
  refine ⟨fun s hs => ?_⟩
  obtain ⟨a, s', hrun, hq⟩ := h.run s (hP s hs)
  exact ⟨a, s', hrun, hQ a s' hq⟩

theorem post (h : Ensures P x Q) (hQ : ∀ a s, Q a s → Q' a s) : Ensures P x Q' := h.mono (fun _ hs => hs) hQ

theorem pure {a : α} (h : ∀ s, P s → Q a s) : Ensures P (pure a : StateT σ Option α) Q :=
  ⟨fun s hs => ⟨a, s, rfl, h s hs⟩⟩

theorem pure_at {a : α} {s : σ} (h : Q a s) : Ensures (fun t => t = s) (Pure.pure a : StateT σ Option α) Q := by
  refine pure ?_
  rintro t rfl
  exact h

theorem bind {f : α → StateT σ Option β} {R : β → σ → Prop} (hx : Ensures P x Q)
    (hf : ∀ a, Ensures (Q a) (f a) R) : Ensures P (x >>= f) R := by
  refine ⟨fun s hs => ?_⟩
  obtain ⟨a, s₁, h1, hq⟩ := hx.run s hs
  obtain ⟨b, s₂, h2, hr⟩ := (hf a).run s₁ hq
  exact ⟨b, s₂, (run_bind_of h1).trans h2, hr⟩

/-- After `get` the state is known. -/
theorem get_bind {f : σ → StateT σ Option β} {R : β → σ → Prop}
    (hf : ∀ s, P s → Ensures (fun t => t = s) (f s) R) :
    Ensures P (get >>= f) R :=
  ⟨fun s hs => (hf s hs).run s rfl⟩

theorem set_bind {t : σ} {f : PUnit → StateT σ Option β} {R : β → σ → Prop}
    (hf : Ensures (fun u => u = t) (f ⟨⟩) R) :
    Ensures P ((set t : StateT σ Option PUnit) >>= f) R :=
  ⟨fun _ _ => hf.run t rfl⟩

theorem modify {g : σ → σ} {R : PUnit → σ → Prop} (h : ∀ s, P s → R ⟨⟩ (g s)) :
    Ensures P (modify g : StateT σ Option PUnit) R :=
  ⟨fun s hs => ⟨⟨⟩, g s, rfl, h s hs⟩⟩

theorem ite {c : Prop} [Decidable c] (hx : c → Ensures P x Q) (hy : ¬ c → Ensures P y Q) :
    Ensures P (if c then x else y) Q := by
  split
  · exact hx ‹_›
  · exact hy ‹_›

/-- A precondition that is about one state only. -/
theorem at_state {s : σ} (h : Ensures P x Q) (hs : P s) : Ensures (fun t => t = s) x Q := by
  refine ⟨?_⟩
  rintro t rfl
  exact h.run t hs

/-- Code that is known to finish, with what its finished runs do. -/
theorem of_total (hx : Total x) (h : ∀ s a s', P s → x.run s = some (a, s') → Q a s') : Ensures P x Q := by
  refine ⟨fun s hs => ?_⟩
  obtain ⟨a, s', hrun⟩ := hx.run s
  exact ⟨a, s', hrun, h s a s' hs hrun⟩

/-- **The invariant rule** for a loop over a list. -/
theorem forM {f : ι → StateT σ Option PUnit} (hf : ∀ i, Ensures P (f i) fun _ => P) :
    ∀ l : List ι, Ensures P (l.forM f) fun _ => P := by
  intro l
  induction l with
  | nil => exact pure fun _ hs => hs
  | cons i l ih => exact (hf i).bind fun _ => ih

/-- **A run of requests that each keep `P`** keeps `P`, and comes to its end. -/
theorem runAll {ο ρ : Type} {serve : ο → StateT σ Option ρ} (hserve : ∀ o, Ensures P (serve o) fun _ => P) :
    ∀ os : List ο, Ensures P (runAll serve os) fun _ => P := by
  intro os
  induction os with
  | nil => exact pure fun _ hs => hs
  | cons o os ih => exact (hserve o).bind fun _ => ih.bind fun _ => pure fun _ hs => hs

end Ensures

/-! ## Invariants of code that may die -/

/-- Every finished run of `x` from a state in `P` ends in `P`. -/
structure Upholds (P : σ → Prop) (x : StateT σ Option α) : Prop where
  run : ∀ s a s', P s → x.run s = some (a, s') → P s'

namespace Upholds

variable {P : σ → Prop} {x y : StateT σ Option α}

theorem pure (a : α) : Upholds P (pure a : StateT σ Option α) := by
  refine ⟨fun s b s' hs h => ?_⟩
  obtain ⟨-, rfl⟩ := run_pure_iff.1 h
  exact hs

theorem dead (h : ∀ s, x.run s = none) : Upholds P x :=
  ⟨fun s a s' _ hrun => by rw [h s] at hrun; exact absurd hrun (by simp)⟩

theorem bind {f : α → StateT σ Option β} (hx : Upholds P x) (hf : ∀ a, Upholds P (f a)) :
    Upholds P (x >>= f) := by
  refine ⟨fun s b s' hs h => ?_⟩
  obtain ⟨a, s₁, h1, h2⟩ := run_bind_iff.1 h
  exact (hf a).run s₁ b s' (hx.run s a s₁ hs h1) h2

theorem get_bind {f : σ → StateT σ Option β} (hf : ∀ s, P s → Upholds P (f s)) : Upholds P (get >>= f) :=
  ⟨fun s b s' hs h => (hf s hs).run s b s' hs h⟩

theorem set_bind {t : σ} {f : PUnit → StateT σ Option β} (ht : P t) (hf : Upholds P (f ⟨⟩)) :
    Upholds P ((set t : StateT σ Option PUnit) >>= f) :=
  ⟨fun _ b s' _ h => hf.run t b s' ht h⟩

theorem modify {g : σ → σ} (h : ∀ s, P s → P (g s)) : Upholds P (modify g : StateT σ Option PUnit) := by
  refine ⟨fun s u s' hs hrun => ?_⟩
  rw [run_modify_iff.1 hrun]
  exact h s hs

theorem ite {c : Prop} [Decidable c] (hx : c → Upholds P x) (hy : ¬ c → Upholds P y) :
    Upholds P (if c then x else y) := by
  split
  · exact hx ‹_›
  · exact hy ‹_›

theorem forM {f : ι → StateT σ Option PUnit} (hf : ∀ i, Upholds P (f i)) :
    ∀ l : List ι, Upholds P (l.forM f) := by
  intro l
  induction l with
  | nil => exact pure _
  | cons i l ih => exact (hf i).bind fun _ => ih

end Upholds

end StateOption
