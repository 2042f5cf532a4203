import ScsiSwap.Proof.Success

/-!
# What a run of the worker leaves alone

`success_honest_iff` is about bios that are ended with error 0. A run that fails in a later round, or
after a mapping has been moved, also leaves its traces, and so does a read that makes a mapping.

* `KeepsRest`, `KeepsBlock`: when a round of a write, or of a read, changes nothing but what it writes;
* `handle_keeps`: a run whose rounds all do that keeps the contents of all other user sectors, however it
  ends;
* `handle_disk`: it does not touch them on the disk in any case.
-/

namespace ScsiSwap

open StateOption

variable {E : Env} {s s' t u : World} {p : ℕ} {bad : ℤ} {g : Seg} {buf : ℕ → Sector}

/-! ## Moves that may fail -/

/-- The data of a mapping after `swap_recreate`, however it ends. -/
theorem swapRecreate_data {D : Block} {ok : Bool} (hd : (s.heap p).data = some D)
    (h : (swapRecreate E p).run s = some (ok, s')) :
    (s'.heap p).data = some D ∨
      ∃ index s₁, (swapAllocNewBlock E).run s = some (some index, s₁) ∧
        (s'.heap p).data = some (reread E p s₁) := by
  cases ok with
  | true => exact Or.inr (swapRecreate_rereads hd h)
  | false =>
    unfold swapRecreate at h
    rw [run_get_bind] at h
    split at h
    · obtain ⟨-, rfl⟩ := run_pure_iff.1 h
      exact Or.inl hd
    obtain ⟨o, s₁, h1, h2⟩ := run_bind_iff.1 h
    obtain ⟨b, hal⟩ := swapAllocNewBlock_alloc h1
    cases o with
    | none =>
      obtain ⟨-, rfl⟩ := run_pure_iff.1 h2
      exact Or.inl ((hal.upd.data p).trans hd)
    | some index =>
      refine Or.inr ⟨index, s₁, h1, ?_⟩
      dsimp only at h2
      obtain ⟨v, s₂, h3, h4⟩ := run_bind_iff.1 h2
      obtain ⟨-, hheap⟩ := reread_run ((hal.upd.data p).trans hd) h3
      rw [run_modify_bind] at h4
      obtain ⟨ok, s₄, h5, h6⟩ := run_bind_iff.1 h4
      -- the flushes only read the block
      have hflush : (s₄.heap p).data = some (reread E p s₁) := by
        have hset : ((s₂.setInfo p { s₂.heap p with
            table := (s₂.heap p).table.assign s₂.core.sectorData index }).heap p).data =
              some (reread E p s₁) := by
          unfold World.setInfo
          dsimp only
          rw [Function.update_self, hheap]
        obtain ⟨ok1, t₁, g1, g2⟩ := run_bind_iff.1 h5
        have hblock := ((flushSwapInfoData_dev g1).data p).trans hset
        cases ok1 with
        | false =>
          obtain ⟨-, rfl⟩ := run_pure_iff.1 g2
          exact hblock
        | true =>
          rw [if_pos rfl] at g2
          obtain ⟨ok2, t₂, g3, g4⟩ := run_bind_iff.1 g2
          obtain ⟨rfl, htab⟩ := flushSwapInfoTable_dev g3
          rw [if_pos rfl] at g4
          exact ((flushSwapHead_dev g4).data p).trans ((htab.data p).trans hblock)
      cases ok with
      | true => exact absurd (run_pure_iff.1 h6).1 (by simp)
      | false =>
        rw [if_neg (by simp), run_modify_bind] at h6
        obtain ⟨-, rfl⟩ := run_pure_iff.1 h6
        exact hflush

theorem swapWrite'_data {start count : ℕ} {ok : Bool} {D : Block} (hd : (s.heap p).data = some D)
    (h : (swapWrite' E p start count buf).run s = some (ok, s')) :
    (s'.heap p).data = some (copyIn D (start - swapSectorAlign start) count buf) := by
  obtain ⟨d, hd', hu⟩ := swapWrite'_spec h
  obtain rfl : d = D := Option.some.inj (hd'.symm.trans hd)
  rw [dataOffset_eq] at hu
  exact (hu.data p).trans (congrArg SwapInfo.data (View.setInfo_info_self ..))

/-- However `swap_write` ends, the sectors `K` that it is not to write are what they were, if they can be read
back when the mapping is moved. -/
theorem swapWrite_keeps {start count : ℕ} {r : Ret} {D : Block} {K : Fin 128 → Prop}
    (hd : (s.heap p).data = some D) (hK : ∀ k, K k → Outside start count k)
    (hre : ∀ t, (swapWrite' E p start count buf).run s = some (false, t) → RereadsAs E p t K D)
    (h : (swapWrite E p start count buf).run s = some (r, s')) :
    ∃ D', (s'.heap p).data = some D' ∧ ∀ k, K k → D' k = D k := by
  unfold swapWrite at h
  obtain ⟨ok, t, h1, h2⟩ := run_bind_iff.1 h
  have hd₁ := swapWrite'_data hd h1
  have hcopy : ∀ d k, K k → copyIn d (start - swapSectorAlign start) count buf k = d k :=
    fun d k hk => copyIn_outside (hK k hk)
  cases ok with
  | true =>
    obtain ⟨-, rfl⟩ := run_pure_iff.1 h2
    exact ⟨_, hd₁, fun k hk => hcopy D k hk⟩
  | false =>
    rw [if_neg (by simp)] at h2
    obtain ⟨ok, t', h3, h4⟩ := run_bind_iff.1 h2
    -- the data between the two writes
    obtain ⟨D', hd₂, hkeep⟩ : ∃ D', (t'.heap p).data = some D' ∧ ∀ k, K k → D' k = D k := by
      rcases swapRecreate_data hd₁ h3 with hd₂ | ⟨index, s₁, hal, hd₂⟩
      · exact ⟨_, hd₂, fun k hk => hcopy D k hk⟩
      · exact ⟨_, hd₂, (rereadsAs_iff hal).1 (hre t h1)⟩
    cases ok with
    | false =>
      obtain ⟨-, rfl⟩ := run_pure_iff.1 h4
      exact ⟨D', hd₂, hkeep⟩
    | true =>
      rw [if_pos rfl] at h4
      obtain ⟨ok, t₃, h5, h6⟩ := run_bind_iff.1 h4
      have hs : s' = t₃ := by
        split at h6
        · exact (run_pure_iff.1 h6).2
        · exact (run_pure_iff.1 h6).2
      rw [hs]
      exact ⟨_, swapWrite'_data hd₂ h5, fun k hk => (hcopy D' k hk).trans (hkeep k hk)⟩

/-! ## Rounds -/

/-- **A round of a write that keeps the rest of its block** changes nothing but its segment, however it ends. -/
theorem coreWriteBlock_keeps {r : Ret} (h : (coreWriteBlock E bad g buf).run s = some (r, s')) (hv : s.view.Inv)
    (hg : g.Ok s.view.geom.reserve) (hk : KeepsRest E bad g (fun k => buf (g.off + k)) s) :
    ∀ x < s.view.geom.reserve, ¬ g.area x → s'.contents x = s.contents x := by
  by_cases hr : r = .err
  swap
  · exact (coreWriteBlock_keeps_iff h hr hv hg).2 hk
  have hstep := coreWriteBlock_step h
  subst hr
  cases hf : s.swapFindSwapInfo g.bStart with
  | some p =>
    unfold coreWriteBlock at h
    rw [run_get_bind] at h
    dsimp only at h
    rw [hf] at h
    obtain ⟨r', s₁, h1, h2⟩ := run_bind_iff.1 h
    cases r' with
    | ok => exact absurd (run_pure_iff.1 h2).1 (by simp)
    | dirty =>
      dsimp only at h2
      split at h2
      · exact absurd (run_pure_iff.1 h2).1 (by simp)
      · exact absurd (run_pure_iff.1 h2).1 (by simp)
    | err =>
      obtain ⟨-, rfl⟩ := run_pure_iff.1 h2
      obtain ⟨hmem, -⟩ := View.find_some (v := s.view) hf
      obtain ⟨d, hd⟩ := Option.isSome_iff_exists.1 (hv.info p hmem).data
      obtain ⟨w, hw, hu⟩ := swapWrite_spec h1
      have hf' : s'.swapFindSwapInfo g.bStart = some p := by
        rw [find_view, hu.view, hw.sameBut.find]
        exact hf
      obtain ⟨d', hd', hkeep⟩ := swapWrite_keeps hd (fun k hk => hk.1) (fun t => hk.moved p d t hf hd) h1
      rw [hstep.keeps_iff hv hg]
      intro k hk
      rw [hg.contents_mapped hf' hd', hg.contents_mapped hf hd, hkeep k hk]
  | none =>
    have hF : s.view.Fit g := ⟨hv, hg⟩
    intro x hx hout
    rw [contents_view, contents_view]
    generalize hr : Ret.err = r at hstep
    cases hstep with
    | hit hp hw hu =>
      rw [find_view] at hf
      rw [hf] at hp
      exact absurd hp (by simp)
    | direct hn hu hd => exact absurd hr (by simp)
    | failed hn hk hu =>
      rw [hu.view]
      refine hk.contents hv fun _ => (hu.within hF).disk x ?_
      rintro (hres | harea)
      · exact not_reserved hx hres
      · exact hout harea
    | created hn hroom hb hi hfree hbit hseg hcopy hu =>
      split at hr
      · exact absurd hr (by simp)
      · exact absurd hr (by simp)

/-- When a round of a read does not change its block: where a mapping is made, the sectors that are read are
zeros on the disk, and the rest of the block is copied as it is there. -/
structure KeepsBlock (E : Env) (bad : ℤ) (g : Seg) (u : World) : Prop where
  zero : Delivers E bad g u
  copied : Unread E bad g u → ∀ index t, (prepareCopy E).run (u.readTried E bad g) = some (some index, t) →
    ∀ k, g.Rest u.core.sectorReserveStart k →
      copied E t g.bStart (g.sStart - g.bStart) g.sCount k = t.disk (g.bStart + k)

theorem readTried_dev {A : ℕ → Prop} (E : Env) (bad : ℤ) (g : Seg) (s : World) :
    Dev A s (s.readTried E bad g) := by
  unfold World.readTried
  split
  · exact Dev.refl _
  · exact answered_dev _

/-- **A round of a read that keeps its block** changes nothing. -/
theorem coreReadBlock_keeps {r : Ret × (ℕ → Sector)} (h : (coreReadBlock E bad g buf).run s = some (r, s'))
    (hv : s.view.Inv) (hg : g.Ok s.view.geom.reserve) (hk : KeepsBlock E bad g s) :
    ∀ x < s.view.geom.reserve, s'.contents x = s.contents x := by
  have hstep := coreReadBlock_step h
  intro x hx
  by_cases hb : r.1 = .dirty ∧ swapSectorAlign x = g.bStart
  swap
  · exact hstep.frame hv hg hx fun hr hal => hb ⟨hr, hal⟩
  obtain ⟨hr, hb⟩ := hb
  have hvia := coreReadBlock_via h (by rw [hr]; simp)
  rw [hr] at hvia
  cases hvia with
  | @created p t₁ t₂ _ hun hc hw he =>
    have hdev := readTried_dev (A := fun _ => False) E bad g s
    have hn : s.view.find g.bStart = none := hun.1
    have hsmall := (hg.small hv.geom.size).2.2
    obtain ⟨index, t, hprep, hdata⟩ := repairAndCreate_copied hc (by rw [hg.align]; exact hg.fit)
      (by rw [hg.align]; exact hsmall)
    rw [hg.align] at hdata
    obtain ⟨hres, hbrk⟩ := repairAndCreate_spec hc
    obtain rfl := hbrk p rfl
    obtain ⟨-, b, index', d, hm, -⟩ := hres.resolve_left (by simp)
    have hd : d = copied E t g.bStart (g.sStart - g.bStart) g.sCount :=
      Option.some.inj ((congrArg SwapInfo.data hm.entry.2).symm.trans hdata)
    have h1 := swapSectorAlign_le x
    have h2 := lt_swapSectorAlign_add x
    obtain ⟨k, rfl⟩ : ∃ k : Fin 128, x = g.bStart + k := ⟨⟨x - g.bStart, by omega⟩, by dsimp only; omega⟩
    rw [enterCreated_contents hdev hv hg hn ((flushSwapInfoData_dev hw).view.trans hm.upd.view) he k,
      hg.contents_unmapped hun.1, hd]
    by_cases harea : g.area (g.bStart + k)
    · -- what was to be read is zeros
      rw [hk.zero hun _ harea]
      obtain ⟨h3, h4⟩ := harea
      have h5 := hg.le
      unfold copied
      rw [if_neg (by omega), if_pos (by omega)]
    · rw [hk.copied hun index t hprep k ((hg.rest_iff k).2 ⟨harea, hx⟩), prepareCopy_disk hprep, hdev.disk _ id]
      rw [hdev.view]
      exact fun hfree => not_reserved hx (hfree.reserved hv.geom)

/-! ## Loops -/

theorem writeSegs_keeps {start : ℕ} : ∀ {gs : List Seg} {s s' : World} {r : Ret},
    (writeSegs E bad buf gs).run s = some (r, s') → s.view.Inv → SegsOk gs start s.view.geom.reserve →
    (∀ g u, WriteGets E bad buf gs s g u → KeepsRest E bad g (fun k => buf (g.off + k)) u) →
    ∀ x < s.view.geom.reserve, (∀ g ∈ gs, ¬ g.area x) → s'.contents x = s.contents x := by
  intro gs
  induction gs with
  | nil =>
    intro s s' r h _ _ _ x _ _
    obtain ⟨-, rfl⟩ := run_pure_iff.1 h
    rfl
  | cons g gs ih =>
    intro s s' r h hv hs hk x hx hout
    have hg := hs.ok g List.mem_cons_self
    unfold writeSegs at h
    obtain ⟨r₁, s₁, h1, h2⟩ := run_bind_iff.1 h
    obtain ⟨hout₁, houts⟩ := List.forall_mem_cons.1 hout
    have hone := coreWriteBlock_keeps h1 hv hg (hk g s ⟨[], gs, rfl, .ok, by simp, rfl⟩) x hx hout₁
    split at h2
    · obtain ⟨-, rfl⟩ := run_pure_iff.1 h2
      exact hone
    · rename_i hr₁
      obtain ⟨r₂, s₂, h3, h4⟩ := run_bind_iff.1 h2
      obtain ⟨-, rfl⟩ := run_pure_iff.1 h4
      obtain ⟨hv₁, hgeom⟩ := (coreWriteBlock_step h1).inv hv hg
      refine (ih h3 hv₁ (hgeom ▸ hs.tail) ?_ x (hgeom ▸ hx) houts).trans hone
      exact fun g' u hg' => hk g' u ((writeGets_cons h1 hr₁).2 (Or.inr hg'))

theorem readSegs_keeps {start : ℕ} : ∀ {gs : List Seg} {buf : ℕ → Sector} {s s' : World} {r : Ret × (ℕ → Sector)},
    (readSegs E bad gs buf).run s = some (r, s') → s.view.Inv → SegsOk gs start s.view.geom.reserve →
    (∀ g u, ReadGets E bad buf gs s g u → KeepsBlock E bad g u) →
    ∀ x < s.view.geom.reserve, s'.contents x = s.contents x := by
  intro gs
  induction gs with
  | nil =>
    intro buf s s' r h _ _ _ x _
    obtain ⟨-, rfl⟩ := run_pure_iff.1 h
    rfl
  | cons g gs ih =>
    intro buf s s' r h hv hs hk x hx
    have hg := hs.ok g List.mem_cons_self
    unfold readSegs at h
    obtain ⟨⟨r₁, buf₁⟩, s₁, h1, h2⟩ := run_bind_iff.1 h
    have hone := coreReadBlock_keeps h1 hv hg (hk g s ⟨[], gs, rfl, .ok, buf, by simp, rfl⟩) x hx
    dsimp only at h2
    split at h2
    · obtain ⟨-, rfl⟩ := run_pure_iff.1 h2
      exact hone
    · rename_i hr₁
      obtain ⟨⟨r₂, buf₂⟩, s₂, h3, h4⟩ := run_bind_iff.1 h2
      obtain ⟨-, rfl⟩ := run_pure_iff.1 h4
      obtain ⟨hv₁, hgeom⟩ := (coreReadBlock_step h1).inv hv hg
      refine (ih h3 hv₁ (hgeom ▸ hs.tail) ?_ x (hgeom ▸ hx)).trans hone
      exact fun g' u hg' => hk g' u ((readGets_cons h1 hr₁).2 (Or.inr hg'))

/-! ## Runs of the worker -/

/-- The round for segment `g` changes nothing but what it writes. -/
def BioCall.KeepsRound (E : Env) (c : BioCall) (g : Seg) (u : World) : Prop :=
  if c.bio.isWrite then KeepsRest E (badIndex c.item.badSec) g (fun k => c.buf (g.off + k)) u
  else KeepsBlock E (badIndex c.item.badSec) g u

/-- So do all rounds of the run that starts in `s`. -/
def BioCall.Keeps (E : Env) (c : BioCall) (s : World) : Prop :=
  ∀ g u, c.item.Gets E c.bio c.buf s g u → c.KeepsRound E g u

theorem serve_keeps {o : Request} {a : Reply} (h : (o.serve E).run s = some (a, s')) (hv : s.view.Inv)
    (hf : Fits o.start o.count s.view.geom.reserve)
    (hk : ∀ g u, o.Gets E s g u → if o.isWrite then KeepsRest E (badIndex o.bad) g (fun k => o.buf (g.off + k)) u
      else KeepsBlock E (badIndex o.bad) g u) {x : ℕ} (hx : x < s.view.geom.reserve)
    (hout : ¬ (o.isWrite = true ∧ o.Covers x)) : s'.contents x = s.contents x := by
  cases hw : o.isWrite with
  | true =>
    rcases serve_writes hw h with ⟨-, rfl⟩ | ⟨hdead, t, hloop, rfl⟩
    · rfl
    refine writeSegs_keeps hloop hv hf.segsOk ?_ x hx fun g hg ha => hout ⟨hw, (hf.covers_iff x).1 ⟨g, hg, ha⟩⟩
    intro g u hgets
    have hround := hk g u ((o.gets_write hw).2 ⟨hdead, hgets⟩)
    rwa [if_pos hw] at hround
  | false =>
    rcases serve_reads hw h with ⟨-, rfl⟩ | ⟨hdead, t, hloop, rfl⟩
    · rfl
    refine readSegs_keeps hloop hv hf.segsOk ?_ x hx
    intro g u hgets
    have hround := hk g u ((o.gets_read hw).2 ⟨hdead, hgets⟩)
    rwa [if_neg (by simp [hw])] at hround

/-- **A run whose rounds change nothing but what they write** keeps the contents of all other user sectors. -/
theorem handle_keeps {c : BioCall} {r : ℤ × (ℕ → Sector)}
    (h : (c.handle E).run s = some (r, s')) (hv : s.view.Inv)
    (hf : c.Fits s) (hk : c.Keeps E s) {x : ℕ} (hx : x < s.core.sectorReserveStart)
    (hout : ¬ (c.bio.isWrite = true ∧ c.request.Covers x)) : s'.contents x = s.contents x := by
  obtain ⟨ok, s₁, hmem, rfl | ⟨rfl, hsize, a, hserve⟩⟩ := handle_cases h
  · exact kmalloc_contents hmem x
  have hview : s₁.view = s.view := (kmalloc_dev (A := fun _ => False) hmem).view
  have hreserve : s₁.view.geom.reserve = s.core.sectorReserveStart := congrArg (fun v => v.geom.reserve) hview
  rw [← kmalloc_contents hmem x]
  refine serve_keeps hserve (hview ▸ hv) (hreserve ▸ hf) ?_ (hreserve ▸ hx) hout
  exact fun g u hg => hk g u ⟨hsize, s₁, hmem, hg⟩

/-! ## The disk -/

theorem WriteStep.disk {src : ℕ → Sector} {r : Ret} (h : WriteStep E s g src r s') (hv : s.view.Inv)
    (hg : g.Ok s.view.geom.reserve) {x : ℕ} (hx : x < s.view.geom.reserve) (hout : ¬ g.area x) :
    s'.disk x = s.disk x := by
  have hF : s.view.Fit g := ⟨hv, hg⟩
  have hres := not_reserved hx
  have hboth : ¬ (Reserved s.view.geom x ∨ g.area x) := by
    rintro (h | h)
    · exact hres h
    · exact hout h
  cases h with
  | hit hp hw hu => exact (hu.within hF).disk x hres
  | direct hn hu hd => exact (hu.within hF).disk x hout
  | failed hn hk hu => exact (hu.within hF).disk x hboth
  | created hn hroom hb hi hfree hbit hseg hcopy hu => exact (hu.within hF).disk x hboth

theorem ReadStep.disk {r : Ret × (ℕ → Sector)} (h : ReadStep E s g buf r s') (hv : s.view.Inv)
    (hg : g.Ok s.view.geom.reserve) {x : ℕ} (hx : x < s.view.geom.reserve) : s'.disk x = s.disk x := by
  have hF : s.view.Fit g := ⟨hv, hg⟩
  have hres := not_reserved hx
  cases h with
  | hit hp hd hbuf => rfl
  | direct hn hu hbuf => exact hu.disk x id
  | failed hn hk hu => exact (hu.within hF).disk x hres
  | created hn hroom hb hi hfree hbit hseg hout hbuf hu => exact (hu.within hF).disk x hres

/-- A core whose invariant holds keeps it, with the sectors `K` of the disk. -/
def KeepsDisk (R : ℕ) (K : ℕ → Prop) (s s' : World) : Prop :=
  s.view.Inv → s.view.geom.reserve = R → s'.view.Inv ∧ s'.view.geom.reserve = R ∧ ∀ x < R, K x →
  s'.disk x = s.disk x

theorem keepsDisk_roundRel (R : ℕ) (K : ℕ → Prop) : RoundRel (KeepsDisk R K) := by
  refine ⟨fun s hv hR => ⟨hv, hR, fun _ _ _ => rfl⟩, ?_, fun s n hv hR => ⟨hv, hR, fun _ _ _ => rfl⟩⟩
  intro s t u h1 h2 hv hR
  obtain ⟨hv₁, hR₁, hd₁⟩ := h1 hv hR
  obtain ⟨hv₂, hR₂, hd₂⟩ := h2 hv₁ hR₁
  exact ⟨hv₂, hR₂, fun x hx hK => (hd₂ x hx hK).trans (hd₁ x hx hK)⟩

/-- **A run of the worker does not touch other user sectors on the disk.** -/
theorem handle_disk {c : BioCall} {r : ℤ × (ℕ → Sector)} (h : (c.handle E).run s = some (r, s')) (hv : s.view.Inv)
    (hf : c.Fits s) {x : ℕ} (hx : x < s.core.sectorReserveStart)
    (hout : ¬ (c.bio.isWrite = true ∧ c.request.Covers x)) : s'.disk x = s.disk x := by
  obtain ⟨ok, s₁, hmem, rfl | ⟨rfl, hsize, a, hserve⟩⟩ := handle_cases h
  · exact (kmalloc_dev (A := fun _ => False) hmem).disk x id
  have hdev := kmalloc_dev (A := fun _ => False) hmem
  have hreserve : s₁.view.geom.reserve = s.core.sectorReserveStart := congrArg (fun v => v.geom.reserve) hdev.view
  rw [← hdev.disk x id]
  have hserved : KeepsDisk s.core.sectorReserveStart
      (fun x => ¬ (c.bio.isWrite = true ∧ c.request.Covers x)) s₁ s' := by
    refine serve_rounds (keepsDisk_roundRel _ _) hserve ?_ ?_
    · intro hw g t r t' hround hrun ht hR
      have hg : g.Ok t.view.geom.reserve := hR ▸ hf.segsOk.ok g hround.mem
      have hstep := coreWriteBlock_step hrun
      obtain ⟨hv', hgeom⟩ := hstep.inv ht hg
      refine ⟨hv', hgeom ▸ hR, fun y hy hK => hstep.disk ht hg (hR ▸ hy) ?_⟩
      exact fun ha => hK ⟨hw, (hf.covers_iff y).1 ⟨g, hround.mem, ha⟩⟩
    · intro g hmem buf t r t' hrun ht hR
      have hg : g.Ok t.view.geom.reserve := hR ▸ hf.segsOk.ok g hmem
      have hstep := coreReadBlock_step hrun
      obtain ⟨hv', hgeom⟩ := hstep.inv ht hg
      exact ⟨hv', hgeom ▸ hR, fun y hy _ => hstep.disk ht hg (hR ▸ hy)⟩
  exact (hserved (hdev.view ▸ hv) hreserve).2.2 x hx hout

end ScsiSwap
