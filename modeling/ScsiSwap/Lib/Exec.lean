import Mathlib

/-!
# Running partial state transformers

`StateT σ Option α` models code that either finishes in a new state or dies. This module
takes such code apart:

* `run_bind_iff` and its relatives: a finished run of a sequence is a finished run of each
  part;
* `Total x`: every run of `x` finishes. Sequences of such parts do too (`Total.bind`);
* `Carries R x`: every finished run of `x` relates the state before to the state after by
  `R`. For a preorder `R` this is closed under sequencing and loops (`Carries.bind`,
  `Carries.forM`);
* `forM_inv`: the invariant rule for a loop over a list.
-/

namespace StateOption

variable {σ α β ι : Type}

/-! ## Inversion -/

theorem run_bind_iff {x : StateT σ Option α} {f : α → StateT σ Option β} {s s' : σ} {b : β} :
    (x >>= f).run s = some (b, s') ↔ ∃ a s₁, x.run s = some (a, s₁) ∧ (f a).run s₁ = some (b, s') := by
  rw [StateT.run_bind]
  constructor
  · intro h
    cases hx : x.run s with
    | none => rw [hx] at h; exact absurd h (by simp)
    | some p => rw [hx] at h; exact ⟨p.1, p.2, rfl, h⟩
  · rintro ⟨a, s₁, hx, hf⟩
    rw [hx]; exact hf

theorem run_pure_iff {a b : α} {s s' : σ} :
    (pure a : StateT σ Option α).run s = some (b, s') ↔ b = a ∧ s' = s := by
  constructor
  · intro h
    have h' := Option.some.inj h
    exact ⟨(congrArg Prod.fst h').symm, (congrArg Prod.snd h').symm⟩
  · rintro ⟨rfl, rfl⟩; rfl

theorem run_get_bind {f : σ → StateT σ Option β} {s : σ} : (get >>= f).run s = (f s).run s := rfl

theorem run_set_bind {f : PUnit → StateT σ Option β} {s t : σ} :
    ((set t : StateT σ Option PUnit) >>= f).run s = (f ⟨⟩).run t := rfl

theorem run_modify_bind {g : σ → σ} {f : PUnit → StateT σ Option β} {s : σ} :
    ((modify g : StateT σ Option PUnit) >>= f).run s = (f ⟨⟩).run (g s) := rfl

theorem run_modify_iff {g : σ → σ} {s s' : σ} {u : PUnit} :
    (modify g : StateT σ Option PUnit).run s = some (u, s') ↔ s' = g s := by
  constructor
  · intro h; exact (congrArg Prod.snd (Option.some.inj h)).symm
  · rintro rfl; rfl

/-- Running on past a part whose result is known. -/
theorem run_bind_of {x : StateT σ Option α} {f : α → StateT σ Option β} {s s₁ : σ} {a : α}
    (h : x.run s = some (a, s₁)) : (x >>= f).run s = (f a).run s₁ := by
  rw [StateT.run_bind, h]; rfl

/-- A run whose result is known has an end. -/
theorem run_of_result {x : StateT σ Option α} {s : σ} {a : α} (h : (x.run s).map Prod.fst = some a) :
    ∃ s', x.run s = some (a, s') := by
  obtain ⟨⟨b, s'⟩, hb, rfl⟩ := Option.map_eq_some_iff.1 h
  exact ⟨s', hb⟩

/-- Runs are deterministic. -/
theorem run_det {x : StateT σ Option α} {s s₁ s₂ : σ} {a b : α} (h1 : x.run s = some (a, s₁))
    (h2 : x.run s = some (b, s₂)) : b = a ∧ s₂ = s₁ := by
  have h := Option.some.inj (h2.symm.trans h1)
  exact ⟨congrArg Prod.fst h, congrArg Prod.snd h⟩

/-- A sequence dies in its first part or in its second. -/
theorem run_bind_eq_none {x : StateT σ Option α} {f : α → StateT σ Option β} {s : σ} :
    (x >>= f).run s = none ↔ x.run s = none ∨ ∃ a s₁, x.run s = some (a, s₁) ∧ (f a).run s₁ = none := by
  rw [StateT.run_bind]
  cases hx : x.run s with
  | none => exact ⟨fun _ => Or.inl rfl, fun _ => rfl⟩
  | some p =>
    constructor
    · intro h
      exact Or.inr ⟨p.1, p.2, rfl, h⟩
    · rintro (h | ⟨a, s₁, h, hf⟩)
      · exact absurd h (by simp)
      · rw [Option.some.inj h]
        exact hf

/-! ## Runs that finish -/

/-- Every run of `x` finishes. -/
structure Total (x : StateT σ Option α) : Prop where
  run : ∀ s, ∃ a s', x.run s = some (a, s')

namespace Total

theorem pure (a : α) : Total (pure a : StateT σ Option α) := ⟨fun s => ⟨a, s, rfl⟩⟩

theorem modify (g : σ → σ) : Total (modify g : StateT σ Option PUnit) := ⟨fun s => ⟨⟨⟩, g s, rfl⟩⟩

theorem set (t : σ) : Total (set t : StateT σ Option PUnit) := ⟨fun _ => ⟨⟨⟩, t, rfl⟩⟩

theorem bind {x : StateT σ Option α} {f : α → StateT σ Option β} (hx : Total x) (hf : ∀ a, Total (f a)) :
    Total (x >>= f) := by
  refine ⟨fun s => ?_⟩
  obtain ⟨a, s₁, h1⟩ := hx.run s
  obtain ⟨b, s₂, h2⟩ := (hf a).run s₁
  exact ⟨b, s₂, (run_bind_of h1).trans h2⟩

theorem get_bind {f : σ → StateT σ Option β} (hf : ∀ s, Total (f s)) :
    Total (get >>= f) := ⟨fun s => (hf s).run s⟩

theorem ite {c : Prop} [Decidable c] {x y : StateT σ Option α} (hx : Total x) (hy : Total y) :
    Total (if c then x else y) := by
  split
  · exact hx
  · exact hy

theorem ne_none {x : StateT σ Option α} (hx : Total x) (s : σ) : x.run s ≠ none := by
  obtain ⟨a, s', h⟩ := hx.run s
  rw [h]
  simp

end Total

/-! ## Relations between the state before and the state after -/

/-- Every finished run of `x` relates the states before and after it by `R`. -/
def Carries (R : σ → σ → Prop) (x : StateT σ Option α) : Prop :=
  ∀ s a s', x.run s = some (a, s') → R s s'

variable {R : σ → σ → Prop}

theorem Carries.pure (hr : ∀ s, R s s) (a : α) : Carries R (pure a : StateT σ Option α) := by
  intro s b s' h
  obtain ⟨-, rfl⟩ := run_pure_iff.1 h
  exact hr _

theorem Carries.bind (ht : ∀ a b c, R a b → R b c → R a c) {x : StateT σ Option α}
    {f : α → StateT σ Option β} (hx : Carries R x) (hf : ∀ a, Carries R (f a)) : Carries R (x >>= f) := by
  intro s b s' h
  obtain ⟨a, s₁, h1, h2⟩ := run_bind_iff.1 h
  exact ht _ _ _ (hx _ _ _ h1) (hf _ _ _ _ h2)

theorem Carries.modify {g : σ → σ} (hg : ∀ s, R s (g s)) : Carries R (modify g : StateT σ Option PUnit) := by
  intro s u s' h
  rw [run_modify_iff.1 h]
  exact hg s

theorem Carries.get_bind {f : σ → StateT σ Option β} (hf : ∀ s, Carries R (f s)) : Carries R (get >>= f) :=
  fun s b s' h => hf s s b s' h

theorem Carries.ite {c : Prop} [Decidable c] {x y : StateT σ Option α} (hx : Carries R x)
    (hy : Carries R y) : Carries R (if c then x else y) := by
  split
  · exact hx
  · exact hy

theorem Carries.forM (hr : ∀ s, R s s) (ht : ∀ a b c, R a b → R b c → R a c)
    {f : ι → StateT σ Option PUnit} (hf : ∀ i, Carries R (f i)) : ∀ l : List ι, Carries R (l.forM f) := by
  intro l
  induction l with
  | nil => exact Carries.pure hr PUnit.unit
  | cons i l ih => exact Carries.bind ht (hf i) fun _ => ih

/-! ## Loops over lists -/

theorem run_forM_cons {f : ι → StateT σ Option PUnit} {i : ι} {l : List ι} {s s' : σ} {u : PUnit} :
    ((i :: l).forM f).run s = some (u, s') ↔
      ∃ v s₁, (f i).run s = some (v, s₁) ∧ (l.forM f).run s₁ = some (u, s') :=
  run_bind_iff

/-- **The invariant rule.** `P k` holds after the first `k` rounds. -/
theorem forM_inv {f : ι → StateT σ Option PUnit} {P : ℕ → σ → Prop} :
    ∀ (l : List ι) (k : ℕ) (s s' : σ) (u : PUnit), P k s → (l.forM f).run s = some (u, s') →
      (∀ j (hj : j < l.length) s v s₁, P (k + j) s → (f l[j]).run s = some (v, s₁) → P (k + j + 1) s₁) →
      P (k + l.length) s' := by
  intro l
  induction l with
  | nil =>
    intro k s s' u hP h _
    obtain ⟨-, rfl⟩ := run_pure_iff.1 h
    exact hP
  | cons i l ih =>
    intro k s s' u hP h hstep
    obtain ⟨v, s₁, h1, h2⟩ := run_forM_cons.1 h
    have h0 := hstep 0 (by simp) s v s₁ hP h1
    have := ih (k + 1) s₁ s' u h0 h2 (by
      intro j hj t w t₁ hPt ht
      have := hstep (j + 1) (by simpa using hj) t w t₁ (by rwa [show k + (j + 1) = k + 1 + j by omega])
        (by simpa using ht)
      rwa [show k + (j + 1) + 1 = k + 1 + j + 1 by omega] at this)
    rwa [show k + 1 + l.length = k + (i :: l).length by simp; omega] at this

end StateOption
