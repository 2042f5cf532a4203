import Mathlib

/-!
# Keeping a list in slots that may fail

A list is cut into chunks of `w` items, and the chunks go to consecutive slots. A writer that
fails at a slot tries the next one. A reader passes over the slots it cannot read, and stops
after the first chunk with fewer than `w` items.

* `pack w l`: the chunks of a list;
* `writeOut fails limit bs pos area`: the slots after the chunks `bs` were written from slot `pos`
  on, where `fails` says which slots cannot be written and the last slot is `limit - 1`;
* `scan w area n k`: what the reader makes of `n` slots from `k` on;
* `writeOut_apply`: which slot then holds which chunk;
* `scan_pack`, `writeOut_good`: where no slot fails the two agree;
* `scan_select`: any slots can be read together, if all but the last one are full;
* `writeOut_map`, `scan_map`: neither looks at the items.
-/

namespace SkipStore

variable {α β γ : Type}

/-! ## Chunks -/

/-- The chunks of `l`, when the first of them already holds `cur`. -/
def pack (w : ℕ) : List α → List α → List (List α)
  | [], cur => if cur.isEmpty then [] else [cur]
  | x :: xs, cur => if cur.length + 1 = w then (cur ++ [x]) :: pack w xs [] else pack w xs (cur ++ [x])

theorem pack_full {w : ℕ} {x : α} {xs cur : List α} (h : cur.length + 1 = w) :
    pack w (x :: xs) cur = (cur ++ [x]) :: pack w xs [] := if_pos h

theorem pack_part {w : ℕ} {x : α} {xs cur : List α} (h : cur.length + 1 ≠ w) :
    pack w (x :: xs) cur = pack w xs (cur ++ [x]) := if_neg h

theorem length_pack {w : ℕ} : ∀ l cur : List α, cur.length < w →
    w * (pack w l cur).length < cur.length + l.length + w := by
  intro l
  induction l with
  | nil =>
    intro cur hcur
    unfold pack
    split
    · simp only [List.length_nil, Nat.mul_zero]; omega
    · rename_i hne
      have : cur.length ≠ 0 := by simpa using hne
      simp only [List.length_singleton, List.length_nil, Nat.mul_one]
      omega
  | cons x xs ih =>
    intro cur hcur
    unfold pack
    split
    · have := ih [] (by simp; omega)
      simp only [List.length_cons, List.length_nil, Nat.mul_add] at this ⊢
      omega
    · have := ih (cur ++ [x]) (by rw [List.length_append, List.length_singleton]; omega)
      rw [List.length_append, List.length_singleton] at this
      rw [List.length_cons]
      omega

/-- A longer list has no fewer chunks. -/
theorem length_pack_append {w : ℕ} (m : List α) : ∀ l cur : List α,
    (pack w l cur).length ≤ (pack w (l ++ m) cur).length := by
  have hcons : ∀ (m cur : List α), cur ≠ [] → 1 ≤ (pack w m cur).length := by
    intro m
    induction m with
    | nil =>
      intro cur hcur
      simp [pack, hcur]
    | cons x xs ih =>
      intro cur _
      unfold pack
      split
      · simp
      · exact ih _ (by simp)
  intro l
  induction l with
  | nil =>
    intro cur
    by_cases hc : cur = []
    · simp [pack, hc]
    · have := hcons m cur hc
      simpa [pack, hc] using this
  | cons x xs ih =>
    intro cur
    rw [List.cons_append]
    unfold pack
    split
    · simpa using ih []
    · exact ih _

/-! ## Writing -/

/-- The last slot tried for a chunk, from slot `pos` on: the first one that does not fail, or
the last one of all. -/
def place (fails : ℕ → Bool) (limit pos : ℕ) : ℕ :=
  ((List.range' pos (limit - pos)).find? fun k => !fails k).getD (max pos (limit - 1))

variable {fails : ℕ → Bool} {limit pos : ℕ}

theorem place_ok (h : fails pos = false) : place fails limit pos = pos := by
  unfold place
  rcases Nat.lt_or_ge pos limit with hlt | hge
  · obtain ⟨n, hn⟩ : ∃ n, limit - pos = n + 1 := ⟨limit - pos - 1, by omega⟩
    rw [hn, List.range'_succ, List.find?_cons_of_pos (by simp [h])]
    rfl
  · rw [Nat.sub_eq_zero_of_le hge]
    simp only [List.range'_zero, List.find?_nil, Option.getD_none]
    omega

theorem place_last (h : limit ≤ pos + 1) : place fails limit pos = pos := by
  by_cases hf : fails pos = false
  · exact place_ok hf
  unfold place
  rcases Nat.lt_or_ge pos limit with hlt | hge
  · rw [show limit - pos = 0 + 1 by omega, List.range'_succ, List.range'_zero,
      List.find?_cons_of_neg (by simpa using hf), List.find?_nil, Option.getD_none]
    omega
  · rw [Nat.sub_eq_zero_of_le hge]
    simp only [List.range'_zero, List.find?_nil, Option.getD_none]
    omega

theorem place_skip (hf : fails pos = true) (h : pos + 1 < limit) :
    place fails limit pos = place fails limit (pos + 1) := by
  unfold place
  obtain ⟨n, hn⟩ : ∃ n, limit - pos = n + 1 := ⟨limit - pos - 1, by omega⟩
  rw [hn, List.range'_succ, List.find?_cons_of_neg (by simp [hf]), show limit - (pos + 1) = n by omega]
  congr 1
  omega

theorem place_le (fails : ℕ → Bool) (limit pos : ℕ) :
    pos ≤ place fails limit pos ∧ place fails limit pos ≤ max pos (limit - 1) := by
  unfold place
  cases h : (List.range' pos (limit - pos)).find? fun k => !fails k with
  | none => exact ⟨le_max_left _ _, le_rfl⟩
  | some q =>
    have hq := List.mem_of_find?_eq_some h
    rw [List.mem_range'_1] at hq
    rw [Option.getD_some]
    omega

theorem place_spec (fails : ℕ → Bool) (limit pos : ℕ) :
    (fails (place fails limit pos) = false ∧ ∀ j, pos ≤ j → j < place fails limit pos → fails j = true) ∨
    (limit ≤ place fails limit pos + 1 ∧ ∀ j, pos ≤ j → j < limit → fails j = true) := by
  unfold place
  cases h : (List.range' pos (limit - pos)).find? fun k => !fails k with
  | none =>
    refine Or.inr ⟨by rw [Option.getD_none]; omega, fun j h1 h2 => ?_⟩
    have := List.find?_eq_none.1 h j (List.mem_range'_1.2 ⟨h1, by omega⟩)
    simpa using this
  | some q =>
    rw [Option.getD_some]
    rw [List.find?_range'_eq_some] at h
    obtain ⟨hgood, -, hbad⟩ := h
    exact Or.inl ⟨by simpa using hgood, fun j h1 h2 => by simpa using hbad j h1 h2⟩

/-- The slots after the chunks `bs` were written, from slot `pos` on. A chunk for which even the
last slot fails is lost. -/
def writeOut (fails : ℕ → Bool) (limit : ℕ) : List β → ℕ → (ℕ → β) → ℕ → β
  | [], _, area => area
  | b :: bs, pos, area =>
    let q := place fails limit pos
    writeOut fails limit bs (q + 1) (if fails q then area else Function.update area q b)

theorem writeOut_map (f : β → γ) : ∀ (bs : List β) (pos : ℕ) (area : ℕ → β),
    f ∘ writeOut fails limit bs pos area = writeOut fails limit (bs.map f) pos (f ∘ area) := by
  intro bs
  induction bs with
  | nil => intro pos area; rfl
  | cons b bs ih =>
    intro pos area
    simp only [List.map_cons, writeOut]
    rw [ih]
    split
    · rfl
    · rw [Function.comp_update]

/-- A slot depends on what it held before, and not on the other slots. -/
theorem writeOut_congr {k : ℕ} : ∀ {bs : List β} {pos : ℕ} {area area' : ℕ → β}, area' k = area k →
    writeOut fails limit bs pos area' k = writeOut fails limit bs pos area k := by
  intro bs
  induction bs with
  | nil => intro pos area area' h; exact h
  | cons b bs ih =>
    intro pos area area' h
    unfold writeOut
    refine ih ?_
    split
    · exact h
    · by_cases hk : k = place fails limit pos
      · rw [hk, Function.update_self, Function.update_self]
      · rw [Function.update_of_ne hk, Function.update_of_ne hk, h]

/-- A slot holds what it held before, or one of the chunks. -/
theorem writeOut_mem {k : ℕ} : ∀ (bs : List β) (pos : ℕ) (area : ℕ → β),
    writeOut fails limit bs pos area k = area k ∨ writeOut fails limit bs pos area k ∈ bs := by
  intro bs
  induction bs with
  | nil => intro pos area; exact Or.inl rfl
  | cons b bs ih =>
    intro pos area
    unfold writeOut
    dsimp only
    rcases ih (place fails limit pos + 1)
      (if fails (place fails limit pos) then area else Function.update area (place fails limit pos) b) with h | h
    · rw [h]
      split
      · exact Or.inl rfl
      · by_cases hk : k = place fails limit pos
        · rw [hk, Function.update_self]
          exact Or.inr List.mem_cons_self
        · exact Or.inl (Function.update_of_ne hk ..)
    · exact Or.inr (List.mem_cons_of_mem _ h)

theorem writeOut_before {k : ℕ} : ∀ (bs : List β) {pos : ℕ} (area : ℕ → β), k < pos →
    writeOut fails limit bs pos area k = area k := by
  intro bs
  induction bs with
  | nil => intro pos area _; rfl
  | cons b bs ih =>
    intro pos area hk
    have hle := (place_le fails limit pos).1
    unfold writeOut
    rw [ih _ (by omega)]
    split
    · rfl
    · exact Function.update_of_ne (by omega) _ _

/-- **Where the chunks are**: a slot that fails keeps what it holds; of the others, the first gets
the first chunk, the second the second one, and so on. -/
theorem writeOut_apply {k : ℕ} (hk : k < limit) : ∀ (bs : List β) {pos : ℕ} (area : ℕ → β), pos ≤ k →
    writeOut fails limit bs pos area k =
      if fails k then area k else bs.getD ((List.range' pos (k - pos)).countP fun j => !fails j) (area k) := by
  intro bs
  induction bs with
  | nil => intro pos area _; simp [writeOut]
  | cons b bs ih =>
    intro pos area hpos
    unfold writeOut
    dsimp only
    rcases place_spec fails limit pos with ⟨hgood, hbad⟩ | ⟨hlast, hbad⟩
    · rw [hgood]
      simp only [Bool.false_eq_true, if_false]
      have hle := (place_le fails limit pos).1
      generalize place fails limit pos = q at hgood hbad hle ⊢
      -- no slot between `pos` and the place of the chunk is good
      have hcount : (List.range' pos (q - pos)).countP (fun j => !fails j) = 0 := by
        rw [List.countP_eq_zero]
        intro j hj
        rw [List.mem_range'_1] at hj
        simp [hbad j hj.1 (by omega)]
      rcases Nat.lt_trichotomy k q with hlt | rfl | hgt
      · rw [writeOut_before _ _ (by omega), Function.update_of_ne (by omega), if_pos (hbad k hpos hlt)]
      · rw [writeOut_before _ _ (by omega), Function.update_self, hgood, hcount]
        rfl
      · have hsplit : List.range' pos (k - pos) =
            List.range' pos (q - pos) ++ q :: List.range' (q + 1) (k - (q + 1)) := by
          rw [← List.range'_succ, show k - (q + 1) + 1 = k - q by omega]
          rw [show k - pos = (q - pos) + (k - q) by omega, ← List.range'_append_1,
            show pos + (q - pos) = q by omega]
        rw [ih _ (by omega), Function.update_of_ne (by omega), hsplit, List.countP_append, hcount,
          List.countP_cons_of_pos (by simp [hgood]), Nat.zero_add, List.getD_cons_succ]
    · rw [writeOut_before _ _ (by omega), if_pos (hbad k hpos hk)]
      split
      · rfl
      · rename_i hq
        have hne : k ≠ place fails limit pos := fun he => hq (he ▸ hbad k hpos hk)
        exact Function.update_of_ne hne _ _

/-- Where no slot fails every chunk is in its place. -/
theorem writeOut_good (h : ∀ k, fails k = false) {k : ℕ} (hk : k < limit) (bs : List β) (area : ℕ → β) :
    writeOut fails limit bs 0 area k = bs.getD k (area k) := by
  rw [writeOut_apply hk _ _ (Nat.zero_le k), h k, List.countP_eq_length.2 (by simp [h]), List.length_range',
    Nat.sub_zero]
  rfl

/-! ## Reading -/

/-- What the reader makes of `n` slots from slot `k` on. `none`: the slot cannot be read. -/
def scan (w : ℕ) (area : ℕ → Option (List α)) : ℕ → ℕ → List α
  | 0, _ => []
  | n + 1, k => match area k with
    | none => scan w area n (k + 1)
    | some b => if b.length < w then b else b ++ scan w area n (k + 1)

theorem scan_map (f : α → γ) (w : ℕ) (area : ℕ → Option (List α)) : ∀ n k,
    scan w (fun k => (area k).map (List.map f)) n k = (scan w area n k).map f := by
  intro n
  induction n with
  | zero => intro k; rfl
  | succ n ih =>
    intro k
    unfold scan
    cases area k with
    | none => exact ih (k + 1)
    | some b =>
      simp only [Option.map_some, List.length_map]
      split
      · rfl
      · rw [ih, List.map_append]

theorem scan_congr {w : ℕ} {area area' : ℕ → Option (List α)} : ∀ {n k : ℕ},
    (∀ i, k ≤ i → i < k + n → area' i = area i) → scan w area' n k = scan w area n k := by
  intro n
  induction n with
  | zero => intro k _; rfl
  | succ n ih =>
    intro k h
    unfold scan
    rw [h k le_rfl (by omega), ih fun i h1 h2 => h i (by omega) (by omega)]

theorem mem_scan {w : ℕ} {f : ℕ → Option (List α)} {x : α} : ∀ {n k : ℕ}, x ∈ scan w f n k →
    ∃ i < k + n, ∃ l, f i = some l ∧ x ∈ l := by
  intro n
  induction n with
  | zero => intro k h; exact absurd h List.not_mem_nil
  | succ n ih =>
    intro k h
    unfold scan at h
    split at h
    · obtain ⟨i, hi, hl⟩ := ih h
      exact ⟨i, by omega, hl⟩
    · rename_i l hl
      split at h
      · exact ⟨k, by omega, l, hl, h⟩
      · rcases List.mem_append.1 h with h | h
        · exact ⟨k, by omega, l, hl, h⟩
        · obtain ⟨i, hi, hl⟩ := ih h
          exact ⟨i, by omega, hl⟩

/-- The slots `ks` are the ones that can be read, and all but the last of them are full. -/
theorem scan_select {w : ℕ} {area : ℕ → Option (List α)} {f : ℕ → List α} : ∀ {n k : ℕ} {ks : List ℕ},
    (∀ i ∈ ks, k ≤ i ∧ i < k + n) → (ks.Pairwise fun i j => i < j ∧ (f i).length = w) →
    (∀ i, k ≤ i → i < k + n → area i = if i ∈ ks then some (f i) else none) → scan w area n k = ks.flatMap f := by
  intro n
  induction n with
  | zero =>
    intro k ks hks _ _
    obtain rfl : ks = [] := List.eq_nil_iff_forall_not_mem.2 fun i hi => by have := hks i hi; omega
    rfl
  | succ n ih =>
    intro k ks hks hfull harea
    have hk := harea k le_rfl (by omega)
    unfold scan
    by_cases hmem : k ∈ ks
    · -- the first slot that can be read
      rw [if_pos hmem] at hk
      obtain ⟨l, rest, rfl⟩ : ∃ l rest, ks = l :: rest := List.exists_cons_of_ne_nil (List.ne_nil_of_mem hmem)
      obtain ⟨hl, hrest⟩ := List.pairwise_cons.1 hfull
      obtain rfl : l = k := by
        rcases List.mem_cons.1 hmem with rfl | hin
        · rfl
        · have := (hl k hin).1
          have := (hks l List.mem_cons_self).1
          omega
      have hscan : scan w area n (l + 1) = rest.flatMap f := by
        refine ih (fun i hi => ?_) hrest fun i h1 h2 => ?_
        · have := (hl i hi).1
          have := (hks i (List.mem_cons_of_mem _ hi)).2
          omega
        · rw [harea i (by omega) (by omega)]
          simp [show i ≠ l by omega]
      rw [hk, List.flatMap_cons]
      dsimp only
      split
      · -- it is not full, so it is the last one
        rename_i hlt
        obtain rfl : rest = [] := List.eq_nil_iff_forall_not_mem.2 fun i hi => by have := (hl i hi).2; omega
        simp
      · rw [hscan]
    · rw [if_neg hmem] at hk
      rw [hk]
      refine ih (fun i hi => ?_) hfull fun i h1 h2 => harea i (by omega) (by omega)
      have hne : i ≠ k := fun he => hmem (he ▸ hi)
      have := hks i hi
      omega

/-- Chunks that follow each other, with an empty slot behind them, are read back. -/
theorem scan_pack {w : ℕ} {area : ℕ → Option (List α)} : ∀ (l cur : List α) {n k : ℕ}, cur.length < w →
    (∀ i b, (pack w l cur)[i]? = some b → area (k + i) = some b) →
    area (k + (pack w l cur).length) = some [] → (pack w l cur).length < n →
    scan w area n k = cur ++ l := by
  intro l
  induction l with
  | nil =>
    intro cur n k hcur hat hend hn
    obtain ⟨n, rfl⟩ : ∃ m, n = m + 1 := ⟨n - 1, by omega⟩
    have hk : area k = some cur := by
      by_cases hc : cur = []
      · subst hc; exact hend
      · exact hat 0 cur (by simp [pack, hc])
    unfold scan
    rw [hk, List.append_nil]
    exact if_pos hcur
  | cons x xs ih =>
    intro cur n k hcur hat hend hn
    unfold pack at hat hend hn
    by_cases hfull : cur.length + 1 = w
    · -- the chunk is full, and the reader goes on
      simp only [hfull, if_true, List.length_cons] at hat hend hn
      obtain ⟨n, rfl⟩ : ∃ m, n = m + 1 := ⟨n - 1, by omega⟩
      have hk : area k = some (cur ++ [x]) := hat 0 _ rfl
      have hrest : scan w area n (k + 1) = [] ++ xs := by
        refine ih [] (by simp; omega) ?_ ?_ (by omega)
        · intro i b hi
          rw [Nat.add_assoc, Nat.add_comm 1 i]
          exact hat (i + 1) b (by simpa using hi)
        · rw [Nat.add_assoc, Nat.add_comm 1]
          exact hend
      unfold scan
      rw [hk, hrest]
      dsimp only
      rw [if_neg (by rw [List.length_append, List.length_singleton]; omega)]
      simp
    · simp only [hfull, if_false] at hat hend hn
      rw [ih (cur ++ [x]) (by rw [List.length_append, List.length_singleton]; omega) hat hend hn]
      simp

end SkipStore
