import ScsiSwap.Proof.Commands
import ScsiSwap.Proof.Table

/-!
# What a start loads

`init_swap_info` on any disk and any device. `LoaderRule` lists what an invariant `D` of the state
needs to hold throughout a load. `initSwapInfo_rule` says in turn where the loaded entries come from:
they are among those that `D` allows in one copy of the table, in their order.
-/

namespace ScsiSwap

open StateOption

variable {E : Env} {s s' : World} {g : Geom} {ref : ℕ → ℕ → List SwapTable} {D : ℕ → World → Prop}
variable {v w : View} {ts : List SwapTable}

/-! ## The list -/

/-- The list consists of mappings with the entries `ts`, each with its data. -/
structure View.Lists (ts : List SwapTable) (v : View) : Prop where
  num : v.num = v.list.length
  tables : v.list.map (fun p => (v.info p).table) = ts
  old : ∀ p ∈ v.list, p < v.brk
  nodup : v.list.Nodup
  data : ∀ p ∈ v.list, (v.info p).data.isSome

theorem View.Lists.table (h : v.Lists ts) {p : ℕ} (hp : p ∈ v.list) : (v.info p).table ∈ ts := by
  rw [← h.tables]
  exact List.mem_map_of_mem hp

theorem View.Lists.length (h : v.Lists ts) : v.list.length = ts.length := by
  rw [← h.tables, List.length_map]

theorem View.Lists.congr (h : v.Lists ts) (hnum : w.num = v.num) (hlist : w.list = v.list) (hbrk : v.brk ≤ w.brk)
    (hinfo : ∀ p ∈ v.list, w.info p = v.info p) : w.Lists ts := by
  refine ⟨by rw [hnum, hlist]; exact h.num, ?_, ?_, by rw [hlist]; exact h.nodup, ?_⟩
  · rw [← h.tables, hlist]
    exact List.map_congr_left fun p hp => by rw [hinfo p hp]
  · intro p hp
    exact (h.old p (hlist ▸ hp)).trans_le hbrk
  · intro p hp
    rw [hlist] at hp
    rw [hinfo p hp]
    exact h.data p hp

theorem View.Lists.keep (h : v.Lists ts) (hk : v.Keep w) : w.Lists ts :=
  h.congr hk.num hk.list hk.brk fun p hp => hk.info p (h.old p hp)

/-- A new entry at the end. -/
theorem View.Lists.enter {p : ℕ} {t : SwapTable} {d : Block} (h : v.Lists ts) (hp : p ∉ v.list) (hb : p < v.brk)
    (hi : v.info p = ⟨t, some d⟩) : (v.enter p).Lists (ts ++ [t]) := by
  have hmem : ∀ q ∈ (v.enter p).list, q ∈ v.list ∨ q = p := by
    intro q hq
    rcases List.mem_append.1 hq with hq | hq
    · exact Or.inl hq
    · exact Or.inr (List.mem_singleton.1 hq)
  refine ⟨?_, ?_, ?_, ?_, ?_⟩
  · show v.num + 1 = (v.list ++ [p]).length
    rw [List.length_append, h.num]
    rfl
  · show (v.list ++ [p]).map (fun q => (v.info q).table) = ts ++ [t]
    rw [List.map_append, h.tables, List.map_singleton, hi]
  · intro q hq
    rcases hmem q hq with hq | rfl
    · exact h.old q hq
    · exact hb
  · refine List.Nodup.append h.nodup (List.nodup_singleton p) fun q hq hqp => ?_
    rw [List.mem_singleton.1 hqp] at hq
    exact hp hq
  · intro q hq
    rcases hmem q hq with hq | rfl
    · exact h.data q hq
    · show (v.info q).data.isSome
      rw [hi]
      rfl

/-! ## The rule -/

/-- The entries in the slots of a table sector. -/
def slotsOf (b : Sector) : List SwapTable := (List.finRange 8).map fun j => (tableSlots b j).strip

/-- The starts of the table and of its backup. -/
def TableStart (g : Geom) (a : ℕ) : Prop := a = g.table ∨ a = g.reserve + swapTableBackupOffset

/-- What a load needs to keep `D a`, where `a` is the start of the copy it reads. What it accepts at
the front of sector `k` is in `ref a k`. -/
structure LoaderRule (E : Env) (g : Geom) (ref : ℕ → ℕ → List SwapTable) (D : ℕ → World → Prop) : Prop where
  geom : ∀ a s, D a s → s.geom = g
  apart : g.table ≠ g.reserve + swapTableBackupOffset
  block : ∀ a s s', D a s → Sends (Of [.block] g) s s' → s'.geom = g → D a s'
  slot : ∀ a k s us, D a s → k < 32 → us <+: slotsOf (s.disk ((a + k) % 2 ^ 32)) → (∀ t ∈ us, t.Accepted g) →
    us.Sublist (ref a k)
  skip : ∀ a a' pos t b s s', D a s → (∃ k < 32, ∃ s₀, D a s₀ ∧ b = s₀.disk ((a + k) % 2 ^ 32)) →
    TableStart g a → TableStart g a' → a ≠ a' → a' ≤ pos → pos < a' + 64 →
    (writeSkip E b (a' + 32) (a' + 32 - pos) pos).run s = some (t, s') → D a s'

theorem LoaderRule.quiet (hr : LoaderRule E g ref D) {a : ℕ} (hD : D a s) (h : Quiet s s')
    (hg : s'.geom = s.geom) :
    D a s' :=
  hr.block _ _ _ hD h.sends (hg.trans (hr.geom _ _ hD))

/-! ## Slots -/

theorem allocSwapInfoData_quiet (start num : ℕ) : Carries Quiet (allocSwapInfoData E start num) := by
  have hread : Carries Quiet (hdReadSectorRetry E start num) := hdReadSector_quiet 5 start num
  unfold allocSwapInfoData
  refine .bind Quiet.trans kmalloc_quiet fun ok => ?_
  split
  · refine .bind Quiet.trans hread fun r => ?_
    split
    split <;> exact .pure Quiet.refl _
  · exact .pure Quiet.refl _

theorem Calm.view (h : Calm s s') : s'.view = s.view := by
  unfold World.view World.geom
  rw [h.core, h.log, h.heap, h.brk]

theorem kmalloc_calm {a : Bool} (h : (kmalloc E).run s = some (a, s')) : Calm s s' := by
  unfold kmalloc at h
  rw [run_get_bind, run_set_bind] at h
  obtain ⟨-, rfl⟩ := run_pure_iff.1 h
  exact ⟨rfl, rfl, rfl, rfl⟩

theorem allocSwapInfoData_calm {start num : ℕ} {a : Option Block}
    (h : (allocSwapInfoData E start num).run s = some (a, s')) : Calm s s' := by
  unfold allocSwapInfoData at h
  obtain ⟨ok, s₁, h1, h2⟩ := run_bind_iff.1 h
  cases ok with
  | false =>
    obtain ⟨-, rfl⟩ := run_pure_iff.1 h2
    exact kmalloc_calm h1
  | true =>
    rw [if_pos rfl] at h2
    obtain ⟨r, s₂, h3, h4⟩ := run_bind_iff.1 h2
    have hc := (kmalloc_calm h1).trans (hdReadSector_calm h3).1
    dsimp only at h4
    split at h4 <;> obtain ⟨-, rfl⟩ := run_pure_iff.1 h4 <;> exact hc

/-- Without data in memory there is nothing to move: the kernel dies, or no spare block was found. -/
theorem swapRecreate_null {p : ℕ} {ok : Bool} (h : (swapRecreate E p).run s = some (ok, s'))
    (hp : (s.heap p).data = none) :
    ok = false ∧ Sends (Of [.block] s.geom) s s' ∧ ∃ b, BitsLe s.view.bitmap b ∧
      s'.view = s.view.setBitmap b := by
  unfold swapRecreate at h
  rw [run_get_bind] at h
  split at h
  · obtain ⟨rfl, rfl⟩ := run_pure_iff.1 h
    exact ⟨rfl, .refl _, _, BitsLe.refl _, rfl⟩
  obtain ⟨o, s₁, h1, h2⟩ := run_bind_iff.1 h
  obtain ⟨b, hal⟩ := swapAllocNewBlock_alloc h1
  cases o with
  | none =>
    obtain ⟨rfl, rfl⟩ := run_pure_iff.1 h2
    exact ⟨rfl, swapAllocNewBlock_sends h1, b, hal.bits, hal.upd.view⟩
  | some index =>
    obtain ⟨u, s₂, h3, -⟩ := run_bind_iff.1 h2
    have hnull : (s₁.heap p).data = none := (hal.upd.data p).trans hp
    rw [show List.range 128 = 0 :: (List.range 127).map Nat.succ from List.range_succ_eq_map, run_forM_cons] at h3
    obtain ⟨v, s₃, h4, -⟩ := h3
    unfold rereadSector at h4
    rw [run_get_bind, hnull] at h4
    exact (run_oops h4).elim

theorem SwapTable.Accepted.strip {t : SwapTable} (h : t.Accepted g) : t.strip.Accepted g :=
  ⟨h.size, (crc_congr (t := t.strip) (u := t) rfl).trans h.crc, h.swap, h.src⟩

/-- One slot. -/
theorem loadSlot_rule (hr : LoaderRule E g ref D) {t t' : SwapTable} {r : SlotRes} {a : ℕ}
    (h : (loadSlot E t).run s = some ((r, t'), s')) (hD : D a s) (hl : s.view.Lists ts) :
    D a s' ∧ t' = t ∧ (r = .loaded → t.Accepted g ∧ s'.view.Lists (ts ++ [t.strip])) ∧
      (r ≠ .loaded → s'.view.Lists ts) ∧ (r ≠ .error → s'.view.head = s.view.head) ∧
      (r = .stop → t.secSize ≠ 128) := by
  unfold loadSlot at h
  obtain ⟨ok, s₁, h1, h2⟩ := run_bind_iff.1 h
  have hd1 := kmalloc_dev (A := fun _ => False) h1
  have hD1 : D a s₁ := hr.quiet hD (kmalloc_quiet _ _ _ h1) hd1.geom
  have hl1 : s₁.view.Lists ts := by rw [hd1.view]; exact hl
  have hh1 : s₁.view.head = s.view.head := by rw [hd1.view]
  -- the ways out without an entry
  have out : ∀ {r₀ : SlotRes} {u : World}, r₀ ≠ .loaded → D a u → u.view.Lists ts →
      (r₀ ≠ .error → u.view.head = s.view.head) → (r₀ = .stop → t.secSize ≠ 128) →
      (pure (r₀, t) : SwapM (SlotRes × SwapTable)).run u = some ((r, t'), s') →
      D a s' ∧ t' = t ∧ (r = .loaded → t.Accepted g ∧ s'.view.Lists (ts ++ [t.strip])) ∧
        (r ≠ .loaded → s'.view.Lists ts) ∧ (r ≠ .error → s'.view.head = s.view.head) ∧
        (r = .stop → t.secSize ≠ 128) := by
    intro r₀ u hne hDu hlu hhu hstop hrun
    obtain ⟨he, rfl⟩ := run_pure_iff.1 hrun
    obtain ⟨rfl, rfl⟩ := Prod.mk.inj he
    exact ⟨hDu, rfl, fun h => absurd h hne, fun _ => hlu, hhu, hstop⟩
  cases ok with
  | false => exact out (by simp) hD1 hl1 (fun _ => hh1) (by simp) h2
  | true =>
    rw [if_pos rfl, run_get_bind] at h2
    dsimp only at h2
    rw [run_set_bind] at h2
    set p := s₁.brk with hp
    set s₂ : World := { s₁.setInfo p ⟨t, none⟩ with brk := p + 1 } with hs2
    have hv2 : s₂.view = s₁.view.alloc ⟨t, none⟩ := by
      show { (s₁.setInfo p ⟨t, none⟩).view with brk := p + 1 } = _
      rw [view_setInfo]
      rfl
    have hl2 : s₂.view.Lists ts := hl1.keep (by rw [hv2]; exact (View.Keep.refl _).alloc _)
    have hD2 : D a s₂ := hr.quiet hD1 ⟨rfl, rfl⟩ rfl
    split at h2
    · rename_i hsize
      exact out (by simp) hD2 hl2 (fun _ => hh1) (fun _ => hsize) h2
    rename_i hsize
    split at h2
    · exact out (by simp) hD2 hl2 (fun _ => hh1) (by simp) h2
    rename_i hrange
    split at h2
    · exact out (by simp) hD2 hl2 (fun _ => hh1) (by simp) h2
    rename_i hcrc
    have hacc : t.Accepted g := by
      rw [← hr.geom _ _ hD1]
      exact ⟨not_not.1 hsize, not_not.1 hcrc, Nat.le_of_not_lt (not_or.1 hrange).1,
        Nat.le_of_not_lt (not_or.1 hrange).2⟩
    -- the entry is accepted, and its data read
    obtain ⟨data, s₃, h3, h4⟩ := run_bind_iff.1 h2
    rw [run_modify_bind] at h4
    obtain ⟨ok, s₅, h5, h6⟩ := run_bind_iff.1 h4
    have hcalm := allocSwapInfoData_calm h3
    have hv3 := hcalm.view
    have hD3 : D a s₃ := hr.quiet hD2 (allocSwapInfoData_quiet _ _ _ _ _ h3) (congrArg View.geom hv3)
    set s₄ := s₃.setInfo p { s₃.heap p with data := data } with hs4
    have hD4 : D a s₄ := hr.quiet hD3 ⟨rfl, rfl⟩ rfl
    have hnot : p ∉ s₂.view.list := fun hmem => absurd (hl1.old p hmem) (Nat.lt_irrefl _)
    have hself : s₄.heap p = ⟨t, data⟩ := by
      have h3p : s₃.heap p = ⟨t, none⟩ := by
        rw [hcalm.heap]
        exact Function.update_self ..
      show Function.update s₃.heap p _ p = _
      rw [Function.update_self, h3p]
    have hv4 : s₄.view = s₂.view.setInfo p { s₃.heap p with data := data } := by
      rw [hs4, view_setInfo, hv3]
    have hl4 : s₄.view.Lists ts := by
      rw [hv4]
      refine hl2.congr rfl rfl le_rfl fun q hq => View.setInfo_info_of_ne _ _ ?_
      rintro rfl
      exact hnot hq
    have hh4 : s₄.view.head = s.view.head := by rw [hv4]; exact hh1
    cases data with
    | none =>
      obtain ⟨rfl, hsend, b, hb, hv5⟩ := swapRecreate_null h5 (by rw [hself])
      have hg4 := hr.geom _ _ hD4
      have hD5 := hr.block _ _ _ hD4 (hg4 ▸ hsend) ((congrArg View.geom hv5).trans hg4)
      have hl5 : s₅.view.Lists ts := by
        rw [hv5]
        exact hl4.keep ((View.Keep.refl _).setBitmap hb)
      exact out (by simp) hD5 hl5 (fun hne => absurd rfl hne) (by simp) h6
    | some d =>
      obtain ⟨rfl, rfl⟩ := run_pure_iff.1 h5
      rw [if_pos rfl, run_get_bind, run_set_bind] at h6
      obtain ⟨he, rfl⟩ := run_pure_iff.1 h6
      obtain ⟨rfl, ht'⟩ := Prod.mk.inj he
      refine ⟨hr.quiet hD4 ⟨rfl, rfl⟩ rfl, ht'.trans (congrArg SwapInfo.table hself), fun _ => ⟨hacc, ?_⟩,
        fun h => absurd rfl h, fun _ => hh4, by simp⟩
      refine View.Lists.enter (v := s₄.view) (d := d) hl4 (by rw [hv4]; exact hnot) ?_
        (by rw [view_info, hself]; rfl)
      rw [hv4]
      exact (show p < s₂.brk from Nat.lt_succ_self _)

/-- How the loader has dealt with the slots `slots`: it has entered `us`, and come back with `r`. -/
structure Fronted (g : Geom) (slots us : List SwapTable) (r : SlotRes) : Prop where
  front : us <+: slots.map SwapTable.strip
  accepted : ∀ t ∈ us, t.Accepted g
  /-- Without an error it has entered all valid slots at the front, up to one that does not look like an entry. -/
  all : r ≠ .error → us = (slots.takeWhile SwapTable.valid).map SwapTable.strip ∧
    ∀ t ∈ (slots.dropWhile SwapTable.valid).head?, t.secSize ≠ 128
  full : r = .loaded → us.length = slots.length

theorem Fronted.nil (g : Geom) : Fronted g [] [] .loaded :=
  ⟨List.nil_prefix, by simp, fun _ => ⟨rfl, by simp⟩, fun _ => rfl⟩

theorem Fronted.cons {slots us : List SwapTable} {r : SlotRes} {t : SwapTable} (h : Fronted g slots us r)
    (ht : t.Accepted g) : Fronted g (t :: slots) (t.strip :: us) r := by
  refine ⟨List.cons_prefix_cons.2 ⟨rfl, h.front⟩, List.forall_mem_cons.2 ⟨ht.strip, h.accepted⟩,
    fun hr => ?_, fun hr => ?_⟩
  · rw [List.takeWhile_cons_of_pos ht.valid, List.dropWhile_cons_of_pos ht.valid, (h.all hr).1]
    exact ⟨rfl, (h.all hr).2⟩
  · rw [List.length_cons, List.length_cons, h.full hr]

/-- The slot that ends the entries, or one that is refused. -/
theorem Fronted.last {slots : List SwapTable} {r : SlotRes} {t : SwapTable} (hr : r ≠ .loaded)
    (hs : r = .stop → t.secSize ≠ 128) : Fronted g (t :: slots) [] r := by
  refine ⟨List.nil_prefix, by simp, fun he => ?_, fun h => absurd h hr⟩
  have hsize : t.secSize ≠ 128 := by
    cases r with
    | error => exact absurd rfl he
    | stop => exact hs rfl
    | loaded => exact absurd rfl hr
  have hv : ¬ t.valid = true := fun hv => hsize (of_decide_eq_true hv).1
  rw [List.takeWhile_cons_of_neg hv, List.dropWhile_cons_of_neg hv]
  exact ⟨rfl, fun u hu => Option.mem_some_iff.1 hu ▸ hsize⟩

/-- The slots of a sector: what was loaded stands at its front. -/
theorem loadSlots_rule (hr : LoaderRule E g ref D) {a : ℕ} : ∀ {js : List (Fin 8)} {b b' : Sector} {r : SlotRes}
    {ts : List SwapTable} {s s' : World}, (loadSlots E js b).run s = some ((r, b'), s') →
    D a s → s.view.Lists ts →
    D a s' ∧ b' = b ∧ (∃ us, Fronted g (js.map (tableSlots b)) us r ∧ s'.view.Lists (ts ++ us)) ∧
      (r ≠ .error → s'.view.head = s.view.head) := by
  intro js
  induction js with
  | nil =>
    intro b b' r ts s s' h hD hl
    obtain ⟨he, rfl⟩ := run_pure_iff.1 h
    obtain ⟨rfl, hb⟩ := Prod.mk.inj he
    exact ⟨hD, hb, ⟨[], .nil g, by rw [List.append_nil]; exact hl⟩, fun _ => rfl⟩
  | cons j js ih =>
    intro b b' r ts s s' h hD hl
    unfold loadSlots at h
    obtain ⟨⟨r₁, t⟩, s₁, h1, h2⟩ := run_bind_iff.1 h
    obtain ⟨hD1, rfl, hloaded, hother, hhead, hstop⟩ := loadSlot_rule hr h1 hD hl
    dsimp only at h2
    rw [putTable_self] at h2
    split at h2
    · rename_i hr₁
      obtain ⟨hacc, hl1⟩ := hloaded hr₁
      obtain ⟨hD2, hb, ⟨us, hus, hl2⟩, hhead'⟩ := ih h2 hD1 hl1
      refine ⟨hD2, hb, ⟨(tableSlots b j).strip :: us, hus.cons hacc, ?_⟩, fun hne => ?_⟩
      · rw [List.append_cons]
        exact hl2
      · exact (hhead' hne).trans (hhead (by rw [hr₁]; simp))
    · rename_i hr₁
      obtain ⟨he, rfl⟩ := run_pure_iff.1 h2
      obtain ⟨rfl, hb⟩ := Prod.mk.inj he
      exact ⟨hD1, hb, ⟨[], .last hr₁ hstop, by rw [List.append_nil]; exact hother hr₁⟩, hhead⟩

/-! ## The table -/

/-- A sector that was read is the one on the disk. -/
theorem hdReadSector_one {r sector : ℕ} {buf : ℕ → Option Sector}
    (h : (hdReadSector E r sector 1).run s = some ((true, buf), s')) :
    buf 0 = some (s.disk (sector % 2 ^ 32)) := by
  rw [hdReadSector_run] at h
  obtain ⟨he, -⟩ := Prod.mk.inj (Option.some.inj h)
  obtain ⟨hok, rfl⟩ := Prod.mk.inj he
  cases hio : E.read s.tick ⟨sector % 2 ^ 32, 1 % 2 ^ 16, r⟩ with
  | ok => simp
  | fail junk nc => rw [hio] at hok; exact absurd hok (by simp [IoResult.isOk])

theorem hdReadSector_rule (hr : LoaderRule E g ref D) {a r sector n : ℕ} {x : Bool × (ℕ → Option Sector)}
    (h : (hdReadSector E r sector n).run s = some (x, s')) (hD : D a s) : D a s' ∧ s'.view = s.view := by
  have hv := (hdReadSector_calm h).1.view
  exact ⟨hr.quiet hD (hdReadSector_quiet _ _ _ _ _ _ h) (congrArg View.geom hv), hv⟩

theorem range_flatMap_sublist {α : Type} (f : ℕ → List α) {k n : ℕ} (h : k ≤ n) :
    ((List.range k).flatMap f).Sublist ((List.range n).flatMap f) := by
  obtain ⟨m, rfl⟩ := Nat.exists_eq_add_of_le h
  rw [List.range_add, List.flatMap_append]
  exact List.sublist_append_left _ _

/-- The entries `ts` are accepted ones from the first `k` sectors of the copy at `a`. -/
structure From (g : Geom) (ref : ℕ → ℕ → List SwapTable) (a k : ℕ) (ts : List SwapTable) : Prop where
  sublist : ts.Sublist ((List.range k).flatMap (ref a))
  accepted : ∀ t ∈ ts, t.Accepted g

theorem From.mono {a k n : ℕ} (h : From g ref a k ts) (hkn : k ≤ n) : From g ref a n ts :=
  ⟨h.sublist.trans (range_flatMap_sublist _ hkn), h.accepted⟩

theorem From.append {a k : ℕ} {us : List SwapTable} (h : From g ref a k ts) (hus : us.Sublist (ref a k))
    (hacc : ∀ t ∈ us, t.Accepted g) : From g ref a (k + 1) (ts ++ us) := by
  refine ⟨?_, fun t ht => ?_⟩
  · rw [List.range_succ, List.flatMap_append, List.flatMap_singleton]
    exact h.sublist.append hus
  · rcases List.mem_append.1 ht with ht | ht
    · exact h.accepted t ht
    · exact hacc t ht

/-- One round of the loop over the table at `a`, for sector `k`: the entries `us` were entered, and `r` came
back. A sector that cannot be read is passed over. -/
structure TableRound (D : ℕ → World → Prop) (g : Geom) (a k : ℕ) (ts us : List SwapTable) (r : SlotRes)
    (s s' : World) : Prop where
  kept : D a s'
  lists : s'.view.Lists (ts ++ us)
  read : us = [] ∧ r = .loaded ∨
    Fronted g ((List.finRange 8).map (tableSlots (s.disk ((a + k) % 2 ^ 32)))) us r
  head : r ≠ .error → s'.view.head = s.view.head

/-- What a round is followed by. The copy that lags behind, at `a'`, is written from `pos` on. -/
theorem loadTable_cases (hr : LoaderRule E g ref D) {sync : TableSync} {limit a n k pos : ℕ} {ok : Bool} (a' : ℕ)
    (ha : TableStart g a) (ha' : sync ≠ .noNeedSync → TableStart g a' ∧ a ≠ a' ∧ limit = a' + 32)
    (h : (loadTable E sync limit (n + 1) (a + k) pos).run s = some (ok, s')) (hk : k < 32) (hD : D a s)
    (hl : s.view.Lists ts) (hlo : a' ≤ pos) (hhi : pos ≤ a' + 32 + k) :
    ∃ us r s₁, TableRound D g a k ts us r s s₁ ∧
      (r ≠ .loaded ∧ s' = s₁ ∧ (ok = true → r = .stop) ∨
        r = .loaded ∧ ∃ pos', a' ≤ pos' ∧ pos' ≤ a' + 32 + (k + 1) ∧
          (loadTable E sync limit n (a + (k + 1)) pos').run s₁ = some (ok, s')) := by
  unfold loadTable at h
  obtain ⟨⟨ok₁, buf⟩, s₁, h1, h2⟩ := run_bind_iff.1 h
  obtain ⟨hD1, hv1⟩ := hdReadSector_rule hr h1 hD
  rw [← hv1] at hl
  dsimp only at h2
  cases ok₁ with
  | false =>
    refine ⟨[], .loaded, s₁, ⟨hD1, by rw [List.append_nil]; exact hl, Or.inl ⟨rfl, rfl⟩, fun _ => by rw [hv1]⟩,
      ?_⟩
    exact Or.inr ⟨rfl, pos, hlo, by omega, h2⟩
  | true =>
    rw [if_pos rfl, hdReadSector_one h1] at h2
    obtain ⟨⟨r, b⟩, s₂, h3, h4⟩ := run_bind_iff.1 h2
    obtain ⟨hD2, hb, ⟨us, hus, hl2⟩, hh2⟩ := loadSlots_rule hr h3 hD1 hl
    rw [hv1] at hh2
    dsimp only at h4
    split at h4
    · rename_i hr₂
      obtain ⟨rfl, rfl⟩ := run_pure_iff.1 h4
      exact ⟨us, r, s', ⟨hD2, hl2, Or.inr hus, hh2⟩, Or.inl ⟨by rw [hr₂]; simp, rfl, by simp⟩⟩
    rename_i hr₂
    obtain ⟨pos', s₃, h5, h6⟩ := run_bind_iff.1 h4
    have hstep : D a s₃ ∧ s₃.view = s₂.view ∧ a' ≤ pos' ∧ pos' ≤ a' + 32 + (k + 1) := by
      split at h5
      · obtain ⟨rfl, rfl⟩ := run_pure_iff.1 h5
        exact ⟨hD2, rfl, hlo, by omega⟩
      · rename_i hsync
        obtain ⟨hstart, hne, rfl⟩ := ha' hsync
        obtain ⟨hd, h7, h8⟩ := writeSkip_dev h5
        have hD3 := hr.skip a a' pos _ _ _ _ hD2 ⟨k, hk, s, hD, hb⟩ ha hstart hne hlo (by omega) h5
        exact ⟨hD3, hd.view, by omega, by omega⟩
    obtain ⟨hD3, hv3, hlo', hhi'⟩ := hstep
    rw [← hv3] at hl2 hh2
    refine ⟨us, r, s₃, ⟨hD3, hl2, Or.inr hus, hh2⟩, ?_⟩
    split at h6
    · rename_i hstop
      obtain ⟨-, rfl⟩ := run_pure_iff.1 h6
      exact Or.inl ⟨by rw [hstop]; simp, rfl, fun _ => hstop⟩
    · rename_i hstop
      refine Or.inr ⟨?_, pos', hlo', hhi', h6⟩
      cases r with
      | error => exact absurd rfl hr₂
      | stop => exact absurd rfl hstop
      | loaded => rfl

theorem TableRound.from (hr : LoaderRule E g ref D) {a k : ℕ} {us : List SwapTable} {r : SlotRes}
    (h : TableRound D g a k ts us r s s') (hD : D a s) (hk : k < 32) (hf : From g ref a k ts) :
    From g ref a (k + 1) (ts ++ us) := by
  rcases h.read with ⟨rfl, -⟩ | hus
  · rw [List.append_nil]
    exact hf.mono (Nat.le_succ k)
  · have hfront := hus.front
    rw [List.map_map] at hfront
    exact hf.append (hr.slot a k s us hD hk hfront hus.accepted) hus.accepted

/-- The loop over the table at `a`, with `k` sectors behind it; the other copy, at `a'`, is written
from `pos` on. -/
theorem loadTable_rule (hr : LoaderRule E g ref D) {sync : TableSync} {limit a : ℕ} (a' : ℕ) (ha : TableStart g a)
    (ha' : sync ≠ .noNeedSync → TableStart g a' ∧ a ≠ a' ∧ limit = a' + 32) :
    ∀ {n k pos : ℕ} {ok : Bool} {ts : List SwapTable} {s s' : World},
    (loadTable E sync limit n (a + k) pos).run s = some (ok, s') → k + n = 32 → D a s → s.view.Lists ts →
    From g ref a k ts → a' ≤ pos → pos ≤ a' + 32 + k →
    D a s' ∧ (∃ ts', s'.view.Lists ts' ∧ From g ref a 32 ts') ∧ (ok = true → s'.view.head = s.view.head) := by
  intro n
  induction n with
  | zero =>
    intro k pos ok ts s s' h hk hD hl hf _ _
    obtain ⟨-, rfl⟩ := run_pure_iff.1 h
    exact ⟨hD, ⟨ts, hl, hf.mono (by omega)⟩, fun _ => rfl⟩
  | succ n ih =>
    intro k pos ok ts s s' h hk hD hl hf hlo hhi
    obtain ⟨us, r, s₁, hround, hnext⟩ := loadTable_cases hr a' ha ha' h (by omega) hD hl hlo hhi
    have hf1 := hround.from hr hD (by omega) hf
    rcases hnext with ⟨-, rfl, hok⟩ | ⟨rfl, pos', hlo', hhi', h1⟩
    · exact ⟨hround.kept, ⟨_, hround.lists, hf1.mono (by omega)⟩, fun h => hround.head (by rw [hok h]; simp)⟩
    · obtain ⟨hD2, hts, hh⟩ := ih h1 (by omega) hround.kept hround.lists hf1 hlo' hhi'
      exact ⟨hD2, hts, fun h => (hh h).trans (hround.head (by simp))⟩

theorem calcSwapInfoNum_rule (hr : LoaderRule E g ref D) {a : ℕ} : ∀ {n start total m : ℕ} {s s' : World},
    (calcSwapInfoNum E n start total).run s = some (m, s') → D a s → D a s' ∧ s'.view = s.view := by
  intro n
  induction n with
  | zero =>
    intro start total m s s' h hD
    obtain ⟨-, rfl⟩ := run_pure_iff.1 h
    exact ⟨hD, rfl⟩
  | succ n ih =>
    intro start total m s s' h hD
    unfold calcSwapInfoNum at h
    obtain ⟨⟨ok, buf⟩, s₁, h1, h2⟩ := run_bind_iff.1 h
    obtain ⟨hD1, hv1⟩ := hdReadSector_rule hr h1 hD
    dsimp only at h2
    split at h2
    · split at h2
      · obtain ⟨-, rfl⟩ := run_pure_iff.1 h2
        exact ⟨hD1, hv1⟩
      · obtain ⟨hD2, hv2⟩ := ih h2 hD1
        exact ⟨hD2, hv2.trans hv1⟩
    · obtain ⟨hD2, hv2⟩ := ih h2 hD1
      exact ⟨hD2, hv2.trans hv1⟩

/-- After the two counts, one copy of the table is loaded, if there is anything to load. -/
theorem initSwapInfo_cases (hr : LoaderRule E g ref D) {ok : Bool} (h : (initSwapInfo E).run s = some (ok, s'))
    (hD : ∀ a, TableStart g a → D a s) :
    ∃ a s₁, TableStart g a ∧ D a s₁ ∧ s₁.view.Lists [] ∧ s₁.view.head = s.view.head ∧
      (s' = s₁ ∨ ∃ sync limit a', (sync ≠ .noNeedSync → TableStart g a' ∧ a ≠ a' ∧ limit = a' + 32) ∧
        (loadTable E sync limit 32 (a + 0) a').run s₁ = some (ok, s')) := by
  have hg : s.geom = g := hr.geom _ _ (hD _ (Or.inl rfl))
  unfold initSwapInfo at h
  rw [run_modify_bind, run_get_bind] at h
  dsimp only at h
  have hl0 : View.Lists [] { s with core := { s.core with infoList := [], infoNum := 0 } }.view :=
    ⟨rfl, rfl, fun p hp => absurd hp List.not_mem_nil, List.nodup_nil, fun p hp => absurd hp List.not_mem_nil⟩
  have hmaster : TableStart g s.core.sectorTable := Or.inl (congrArg Geom.table hg)
  have hback : TableStart g (s.core.sectorReserveStart + swapTableBackupOffset) :=
    Or.inr (congrArg (fun g => g.reserve + swapTableBackupOffset) hg)
  have hne : s.core.sectorTable ≠ s.core.sectorReserveStart + swapTableBackupOffset := by
    rw [← hg] at hr
    exact hr.apart
  obtain ⟨num, s₁, h1, h2⟩ := run_bind_iff.1 h
  obtain ⟨numBack, s₂, h3, h4⟩ := run_bind_iff.1 h2
  have hscan : ∀ a, TableStart g a → D a s₂ ∧ s₂.view.Lists [] ∧ s₂.view.head = s.view.head := by
    intro a ha
    obtain ⟨hD1, hv1⟩ := calcSwapInfoNum_rule hr h1 (hr.quiet (hD a ha) ⟨rfl, rfl⟩ rfl)
    obtain ⟨hD2, hv2⟩ := calcSwapInfoNum_rule hr h3 hD1
    exact ⟨hD2, by rw [hv2, hv1]; exact hl0, by rw [hv2, hv1]; rfl⟩
  obtain ⟨hD2, hl2, hh2⟩ := hscan _ hmaster
  split at h4
  · exact ⟨_, s₂, hback, (hscan _ hback).1, hl2, hh2, Or.inr ⟨_, _, _, fun _ => ⟨hmaster, hne.symm, rfl⟩, h4⟩⟩
  split at h4
  · exact ⟨_, s₂, hmaster, hD2, hl2, hh2, Or.inr ⟨_, _, _, fun _ => ⟨hback, hne, rfl⟩, h4⟩⟩
  split at h4
  · obtain ⟨-, rfl⟩ := run_pure_iff.1 h4
    exact ⟨_, _, hmaster, hD2, hl2, hh2, Or.inl rfl⟩
  · exact ⟨_, s₂, hmaster, hD2, hl2, hh2, Or.inr ⟨_, _, _, fun h => absurd rfl h, h4⟩⟩

/-- **The loaded entries are accepted ones of one copy of the table**, each with its data, whatever
the device does. A load that returns 0 leaves the head alone. -/
theorem initSwapInfo_rule (hr : LoaderRule E g ref D) {ok : Bool} (h : (initSwapInfo E).run s = some (ok, s'))
    (hD : ∀ a, TableStart g a → D a s) :
    ∃ a ts, TableStart g a ∧ D a s' ∧ s'.view.Lists ts ∧ From g ref a 32 ts ∧
      (ok = true → s'.view.head = s.view.head) := by
  obtain ⟨a, s₁, ha, hD1, hl1, hh1, hend⟩ := initSwapInfo_cases hr h hD
  have hf : From g ref a 0 [] := ⟨List.Sublist.refl _, by simp⟩
  rcases hend with rfl | ⟨sync, limit, a', ha', hload⟩
  · exact ⟨a, [], ha, hD1, hl1, hf.mono (by omega), fun _ => hh1⟩
  · obtain ⟨hD2, ⟨ts, hl2, hf2⟩, hh2⟩ := loadTable_rule hr a' ha ha' hload rfl hD1 hl1 hf le_rfl (by omega)
    exact ⟨a, ts, ha, hD2, hl2, hf2, fun hok => (hh2 hok).trans hh1⟩

/-! ## The sectors that are loaded -/

/-- Nothing is accepted from a sector without entries. -/
theorem NoEntry.content_nil {b : Sector} (hb : NoEntry b) : content b = [] := by
  unfold content entriesOf
  rw [show List.finRange 8 = 0 :: (List.finRange 7).map Fin.succ from List.finRange_succ, List.map_cons,
    List.takeWhile_cons_of_neg (by rw [hb]; simp), List.map_nil]

/-- The loader takes all entries of the sector: they pass its tests, and what ends them does not look like one. -/
structure Taken (g : Geom) (b : Sector) : Prop where
  accepted : ∀ t ∈ content b, t.Accepted g
  ended : ∀ t ∈ endOf b, t.secSize ≠ 128

theorem Fronted.taken {b : Sector} {us : List SwapTable} {r : SlotRes}
    (h : Fronted g ((List.finRange 8).map (tableSlots b)) us r) (hr : r ≠ .error) :
    us = content b ∧ Taken g b := by
  obtain ⟨hus, hend⟩ := h.all hr
  exact ⟨hus, fun t ht => h.accepted t (hus ▸ ht), hend⟩

/-- A selection of the sectors `sec` that a load may read, in order: all but the last one are full. -/
structure Selected (g : Geom) (sec : ℕ → Sector) (ks : List ℕ) : Prop where
  taken : ∀ k ∈ ks, k < 32 ∧ Taken g (sec k)
  full : ks.Pairwise fun k l => k < l ∧ (content (sec k)).length = 8

/-- **The loop over the table** enters the entries of a selection of its sectors. `sec k` is what sector `k`
held at first; it may have lost its entries since. -/
theorem loadTable_selects (hr : LoaderRule E g ref D) {sync : TableSync} {limit a : ℕ} (a' : ℕ)
    (ha : TableStart g a)
    (ha' : sync ≠ .noNeedSync → TableStart g a' ∧ a ≠ a' ∧ limit = a' + 32) {sec : ℕ → Sector}
    (hsec : ∀ s, D a s → ∀ k < 32, s.disk ((a + k) % 2 ^ 32) = sec k ∨ NoEntry (s.disk ((a + k) % 2 ^ 32))) :
    ∀ {n k pos : ℕ} {ts : List SwapTable} {s s' : World},
    (loadTable E sync limit n (a + k) pos).run s = some (true, s') → k + n = 32 → D a s → s.view.Lists ts →
    a' ≤ pos → pos ≤ a' + 32 + k →
    ∃ ks, Selected g sec ks ∧ (∀ l ∈ ks, k ≤ l) ∧ s'.view.Lists (ts ++ ks.flatMap fun l => content (sec l)) := by
  intro n
  induction n with
  | zero =>
    intro k pos ts s s' h _ _ hl _ _
    obtain ⟨-, rfl⟩ := run_pure_iff.1 h
    exact ⟨[], ⟨by simp, List.Pairwise.nil⟩, by simp, by simpa using hl⟩
  | succ n ih =>
    intro k pos ts s s' h hk hD hl hlo hhi
    obtain ⟨us, r, s₁, hround, hnext⟩ := loadTable_cases hr a' ha ha' h (by omega) hD hl hlo hhi
    rcases hnext with ⟨hne, rfl, hok⟩ | ⟨rfl, pos', hlo', hhi', h1⟩
    · -- the table ends in this sector
      obtain rfl := hok rfl
      obtain ⟨rfl, htaken⟩ := (hround.read.resolve_left fun he => hne he.2).taken (by simp)
      rcases hsec s hD k (by omega) with hsame | hno
      · rw [hsame] at htaken
        refine ⟨[k], ⟨by simpa using ⟨by omega, htaken⟩, List.pairwise_singleton _ _⟩, by simp, ?_⟩
        rw [List.flatMap_singleton, ← hsame]
        exact hround.lists
      · refine ⟨[], ⟨by simp, List.Pairwise.nil⟩, by simp, ?_⟩
        have hlists := hround.lists
        rw [hno.content_nil] at hlists
        exact hlists
    · obtain ⟨ks, hks, hle, hlists⟩ := ih h1 (by omega) hround.kept hround.lists hlo' hhi'
      rcases hround.read with ⟨rfl, -⟩ | hfront
      · -- a sector that could not be read
        rw [List.append_nil] at hlists
        exact ⟨ks, hks, fun l hl => (Nat.le_succ k).trans (hle l hl), hlists⟩
      · obtain ⟨rfl, htaken⟩ := hfront.taken (by simp)
        have hlen : (content (s.disk ((a + k) % 2 ^ 32))).length = 8 := by
          rw [hfront.full rfl, List.length_map, List.length_finRange]
        rcases hsec s hD k (by omega) with hsame | hno
        · rw [hsame] at htaken hlen hlists
          refine ⟨k :: ks, ⟨?_, ?_⟩, ?_, ?_⟩
          · exact List.forall_mem_cons.2 ⟨⟨by omega, htaken⟩, hks.taken⟩
          · exact List.pairwise_cons.2 ⟨fun l hl => ⟨hle l hl, hlen⟩, hks.full⟩
          · exact List.forall_mem_cons.2 ⟨le_rfl, fun l hl => (Nat.le_succ k).trans (hle l hl)⟩
          · rw [List.flatMap_cons, ← List.append_assoc]
            exact hlists
        · rw [hno.content_nil] at hlen
          exact absurd hlen (by simp)

/-- **A load that returns 0 enters the entries of a selection of sectors** of one copy of the table. -/
theorem initSwapInfo_selects (hr : LoaderRule E g ref D) (h : (initSwapInfo E).run s = some (true, s'))
    (hD : ∀ a, TableStart g a → D a s) {sec : ℕ → ℕ → Sector} (hsec : ∀ a s, D a s → ∀ k < 32,
      s.disk ((a + k) % 2 ^ 32) = sec a k ∨ NoEntry (s.disk ((a + k) % 2 ^ 32))) :
    ∃ a ks, TableStart g a ∧ Selected g (sec a) ks ∧ s'.view.Lists (ks.flatMap fun l => content (sec a l)) := by
  obtain ⟨a, s₁, ha, hD1, hl1, -, hend⟩ := initSwapInfo_cases hr h hD
  rcases hend with rfl | ⟨sync, limit, a', ha', hload⟩
  · exact ⟨a, [], ha, ⟨by simp, List.Pairwise.nil⟩, hl1⟩
  · obtain ⟨ks, hks, -, hlists⟩ := loadTable_selects hr a' ha ha' (hsec a) hload rfl hD1 hl1 le_rfl (by omega)
    exact ⟨a, ks, ha, hks, hlists⟩

/-! ## The rule at work -/

/-- Where everything is after the first lines of `scsi_swap_core_init`, with the head at `h`. The log
is still where it was. -/
def bootGeom (g₀ : Geom) (R h : ℕ) : Geom :=
  { g₀ with reserve := R, head := h, table := R + swapTableOffset, data := R + swapDataOffset }

/-- The tests of the loader, for a reserve at `R`. -/
def SwapTable.acceptable (R : ℕ) (t : SwapTable) : Bool :=
  t.secSize = 128 ∧ R + swapDataOffset ≤ t.swapSec.toNat ∧ t.srcSec.toNat ≤ R ∧ t.crc = t.checksum

theorem acceptable_iff {g₀ : Geom} {R h : ℕ} {t : SwapTable} :
    t.acceptable R = true ↔ t.Accepted (bootGeom g₀ R h) := by
  unfold SwapTable.acceptable
  rw [decide_eq_true_iff]
  exact ⟨fun ⟨h1, h2, h3, h4⟩ => ⟨h1, h4, h2, h3⟩, fun h => ⟨h.size, h.swap, h.src, h.crc⟩⟩

section

variable {g₀ : Geom} {R h a a' k : ℕ} {A : Sent → Prop} {disk : ℕ → Sector} {s₀ : World}

theorem TableStart.offset (ha : TableStart (bootGeom g₀ R h) a) :
    ∃ b, (b = swapTableOffset ∨ b = swapTableBackupOffset) ∧ a = R + b := by
  rcases ha with ha | ha
  · exact ⟨_, Or.inl rfl, ha⟩
  · exact ⟨_, Or.inr rfl, ha⟩

/-- No table sector is in a spare block, however large the disk. -/
theorem TableStart.not_block (ha : TableStart (bootGeom g₀ R h) a) (hk : k < 32) {c : Sent}
    (hc : Of [.block] (bootGeom g₀ R h) c) : ¬ c.Has ((a + k) % 2 ^ 32) := by
  obtain ⟨b, hb, rfl⟩ := ha.offset
  obtain ⟨hw, ht⟩ := hc
  unfold Tidy at ht
  rw [List.mem_singleton.1 hw] at ht
  obtain ⟨x, hlo, hhi, hlba, hcount⟩ := ht
  rintro ⟨h1, h2⟩
  -- the sector of the block that has this address
  set m := (R + b + k) % 2 ^ 32 - c.lba with hm
  have hsame : (R + (b + k)) % 2 ^ 32 = (R + (x - R + m)) % 2 ^ 32 := by
    simp only [bootGeom] at hlo
    rw [← Nat.add_assoc R (x - R), Nat.add_sub_cancel' (by omega), ← Nat.add_assoc, Nat.add_mod x, ← hlba]
    omega
  simp only [bootGeom, swapDataOffset, maxSwapBlock, sector8M] at hlo hhi
  have hback : swapTableBackupOffset = 2080768 := rfl
  have htab : swapTableOffset = 32768 := rfl
  have hoff := addr_inj (by simp only [maxReservedSector]; omega) (by simp only [maxReservedSector]; omega) hsame
  omega

/-- The two copies do not meet. -/
theorem TableStart.not_other (ha : TableStart (bootGeom g₀ R h) a)
    (ha' : TableStart (bootGeom g₀ R h) a') (hne : a ≠ a')
    (hk : k < 32) {m : ℕ} (hlo : a' ≤ m) (hhi : m < a' + 100) : (a + k) % 2 ^ 32 ≠ m % 2 ^ 32 := by
  obtain ⟨b, hb, rfl⟩ := ha.offset
  obtain ⟨b', hb', rfl⟩ := ha'.offset
  have hback : swapTableBackupOffset = 2080768 := rfl
  have htab : swapTableOffset = 32768 := rfl
  intro he
  rw [show R + b + k = R + (b + k) by omega, show m = R + (m - R) by omega] at he
  have hoff := addr_inj (by simp only [maxReservedSector]; omega) (by simp only [maxReservedSector]; omega) he
  omega

/-- The copy of the table at `a` is the one on `disk`, less sectors that lost their entries, and the
commands sent since `s₀` have `A`. -/
structure Loading (A : Sent → Prop) (g₀ : Geom) (R h : ℕ) (disk : ℕ → Sector) (s₀ : World) (a : ℕ)
    (s : World) : Prop where
  geom : s.geom = bootGeom g₀ R h
  start : TableStart (bootGeom g₀ R h) a
  sends : Sends A s₀ s
  same : ∀ k < 32, s.disk ((a + k) % 2 ^ 32) = disk ((a + k) % 2 ^ 32) ∨ NoEntry (s.disk ((a + k) % 2 ^ 32))

/-- Commands that spare this copy are no obstacle. -/
theorem Loading.after (hl : Loading A g₀ R h disk s₀ a s) (hs : Sends A s s') (hg : s'.geom = bootGeom g₀ R h)
    (hkeep : ∀ k < 32, s'.disk ((a + k) % 2 ^ 32) = s.disk ((a + k) % 2 ^ 32)) :
    Loading A g₀ R h disk s₀ a s' := by
  refine ⟨hg, hl.start, hl.sends.trans hs, fun k hk => ?_⟩
  rw [hkeep k hk]
  exact hl.same k hk

/-- Nothing is accepted from a sector without entries. -/
theorem NoEntry.prefix_nil {b : Sector} (hb : NoEntry b) {us : List SwapTable} (hus : us <+: slotsOf b)
    (hacc : ∀ t ∈ us, t.Accepted g) : us = [] := by
  cases us with
  | nil => rfl
  | cons t us =>
    unfold slotsOf at hus
    rw [show List.finRange 8 = 0 :: (List.finRange 7).map Fin.succ from List.finRange_succ, List.map_cons,
      List.cons_prefix_cons] at hus
    have hvalid := (hacc t List.mem_cons_self).valid
    rw [hus.1, SwapTable.strip_valid, hb] at hvalid
    exact absurd hvalid (by simp)

theorem loading_rule (disk : ℕ → Sector) (s₀ : World) (hA : ∀ c, Of [.block, .table] (bootGeom g₀ R h) c → A c) :
    LoaderRule E (bootGeom g₀ R h) (fun a k => slotsOf (disk ((a + k) % 2 ^ 32))) (Loading A g₀ R h disk s₀) where
  geom _ _ hl := hl.geom
  apart := by
    simp only [bootGeom, swapTableOffset, swapTableBackupOffset, maxReservedSector, sector8M]
    omega
  block a s s' hl hs hg := by
    refine hl.after (hs.mono fun c hc => hA c (hc.mono (by simp))) hg fun k hk => ?_
    obtain ⟨l, -, hf, hb⟩ := hs
    exact (hf.keeps fun c hc => hl.start.not_block hk (hb c hc)).1
  slot a k s us hl hk hus hacc := by
    rcases hl.same k hk with hsame | hno
    · rw [hsame] at hus
      exact hus.sublist
    · rw [hno.prefix_nil hus hacc]
      exact List.nil_sublist _
  skip a a' pos t b s s' hl _ _ ha' hne hlo hhi hrun := by
    obtain ⟨hd, h1, h2⟩ := writeSkip_dev hrun
    refine hl.after ((writeSkip_sends hrun).mono ?_) (hd.geom.trans hl.geom) fun k hk => hd.disk _ ?_
    · rintro c ⟨hw, hc, m, h3, h4, h5⟩
      refine hA c ((of_table (n := 100) (by omega) hw hc ?_).mono (by simp))
      have hspan : Span a' 100 c.lba := ⟨m - a', by omega, by rw [h5, Nat.add_sub_cancel' (hlo.trans h3)]⟩
      rcases ha' with rfl | rfl
      · exact Or.inl hspan
      · exact Or.inr hspan
    · rintro ⟨m, h3, h4, h5⟩
      exact hl.start.not_other ha' hne hk (hlo.trans h3) (by omega) h5

end

end ScsiSwap
