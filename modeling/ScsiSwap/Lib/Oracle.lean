import ScsiSwap.Lib.Exec

/-!
# Code that asks an oracle

Code that asks the world outside asks it at the current moment, and time does not run backwards. So a run
depends on the answers that are given while it lasts, and on no others.

* `Follows now same s x y`: from `s` on, `y` does what `x` does if the moments at which both get the same answers
  include all those of the run of `x`;
* `Follows.pure`, `.bind`, `.get_bind`, `.set_bind`, `.modify`, `.ite`, `.forM`: the rules for the parts of a
  program, with `x` and `y` the same code for two oracles.
-/

namespace StateOption

variable {σ α β ι : Type}

/-- A finished run of `x` from `s` takes no time or more, and is one of `y` if it ends before the answers
differ. -/
structure Follows (now : σ → ℕ) (same : ℕ → Prop) (s : σ) (x y : StateT σ Option α) : Prop where
  later : ∀ a s', x.run s = some (a, s') → now s ≤ now s'
  run : ∀ a s', x.run s = some (a, s') → (∀ t, now s ≤ t → t < now s' → same t) → y.run s = some (a, s')

namespace Follows

variable {now : σ → ℕ} {same : ℕ → Prop} {s : σ} {x y : StateT σ Option α}

/-- Code that takes no time and asks nothing. -/
theorem of_eq (h : ∀ a s', x.run s = some (a, s') → now s' = now s) : Follows now same s x x :=
  ⟨fun a s' hrun => (h a s' hrun).ge, fun _ _ hrun _ => hrun⟩

theorem pure (a : α) : Follows now same s (pure a : StateT σ Option α) (Pure.pure a) := by
  refine of_eq fun b s' h => ?_
  rw [(run_pure_iff.1 h).2]

theorem modify {g : σ → σ} (hg : now (g s) = now s) :
    Follows now same s (modify g : StateT σ Option PUnit) (MonadStateOf.modifyGet fun s => (⟨⟩, g s)) := by
  refine of_eq fun u s' h => ?_
  rw [run_modify_iff.1 h, hg]

theorem bind {f g : α → StateT σ Option β} (hx : Follows now same s x y)
    (hf : ∀ a s₁, Follows now same s₁ (f a) (g a)) : Follows now same s (x >>= f) (y >>= g) := by
  refine ⟨fun b s' h => ?_, fun b s' h hsame => ?_⟩
  · obtain ⟨a, s₁, h1, h2⟩ := run_bind_iff.1 h
    exact (hx.later a s₁ h1).trans ((hf a s₁).later b s' h2)
  · obtain ⟨a, s₁, h1, h2⟩ := run_bind_iff.1 h
    have hle1 := hx.later a s₁ h1
    have hle2 := (hf a s₁).later b s' h2
    -- the time of the sequence is that of its first part, and then that of the second
    have hy := hx.run a s₁ h1 fun t ht hlt => hsame t ht (hlt.trans_le hle2)
    exact (run_bind_of hy).trans ((hf a s₁).run b s' h2 fun t ht hlt => hsame t (hle1.trans ht) hlt)

theorem get_bind {f g : σ → StateT σ Option β} (hf : Follows now same s (f s) (g s)) :
    Follows now same s (get >>= f) (get >>= g) := ⟨hf.later, hf.run⟩

theorem set_bind {t : σ} {f g : PUnit → StateT σ Option β} (ht : now t = now s)
    (hf : Follows now same t (f ⟨⟩) (g ⟨⟩)) :
    Follows now same s ((set t : StateT σ Option PUnit) >>= f) ((set t : StateT σ Option PUnit) >>= g) :=
  ⟨fun b s' h => ht ▸ hf.later b s' h, fun b s' h hsame => hf.run b s' h fun u hu hlt => hsame u (ht ▸ hu) hlt⟩

theorem ite {c : Prop} [Decidable c] {x' y' : StateT σ Option α} (hx : Follows now same s x y)
    (hx' : Follows now same s x' y') : Follows now same s (if c then x else x') (if c then y else y') := by
  split
  · exact hx
  · exact hx'

theorem forM {f g : ι → StateT σ Option PUnit} (hf : ∀ i s, Follows now same s (f i) (g i)) :
    ∀ (l : List ι) (s : σ), Follows now same s (l.forM f) (l.forM g) := by
  intro l
  induction l with
  | nil => exact fun _ => pure _
  | cons i l ih => exact fun s => (hf i s).bind fun _ => ih

end Follows

end StateOption
