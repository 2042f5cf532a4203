import ScsiSwap.Lib.SkipStore
import ScsiSwap.Proof.Start

/-!
# The table areas, as a skipping store

Eight entries make a chunk. What `flush_swap_info_table` leaves in an area is `writeOut` of the
chunks of the list, whichever sectors fail (`flushSwapInfoTable_area`); what `init_swap_info`
loads from it is `scan` (`initSwapInfo_scan`).
-/

namespace ScsiSwap

open StateOption ByteCodec SkipStore

variable {E : Env} {s s' : World} {A : ℕ → Prop} {bad : ℕ → Bool}

/-! ## Entries of a sector -/

/-- A table entry without the record of where it was last saved. -/
def SwapTable.strip (t : SwapTable) : SwapTable := { t with saveSec := 0 }

theorem SwapTable.strip_valid (t : SwapTable) : t.strip.valid = t.valid := by
  unfold SwapTable.valid SwapTable.strip
  rw [crc_congr (t := { t with saveSec := 0 }) (u := t) rfl]

/-- The entries a scan takes from a sector: the valid ones at its front. -/
def entriesOf (b : Sector) : List SwapTable := ((List.finRange 8).map (tableSlots b)).takeWhile SwapTable.valid

theorem entriesOf_length_le (b : Sector) : (entriesOf b).length ≤ 8 := by
  have := (List.takeWhile_sublist SwapTable.valid (l := (List.finRange 8).map (tableSlots b))).length_le
  simpa [entriesOf] using this

theorem validEntries_eq (b : Sector) : validEntries b = (entriesOf b).length := by
  unfold validEntries entriesOf
  rw [List.takeWhile_map, List.length_map]
  rfl

/-- The slot that ends them, if the sector is not full. -/
def endOf (b : Sector) : Option SwapTable :=
  (((List.finRange 8).map (tableSlots b)).dropWhile SwapTable.valid).head?

theorem endOf_eq_none (b : Sector) : endOf b = none ↔ (entriesOf b).length = 8 := by
  have hlen : (entriesOf b).length + (((List.finRange 8).map (tableSlots b)).dropWhile SwapTable.valid).length =
      8 := by
    rw [entriesOf, ← List.length_append, List.takeWhile_append_dropWhile, List.length_map, List.length_finRange]
  unfold endOf
  rw [List.head?_eq_none_iff, ← List.length_eq_zero_iff]
  omega

/-- The entries of a sector, stripped. -/
def content (b : Sector) : List SwapTable := (entriesOf b).map SwapTable.strip

theorem tableSlots_zero (j : Fin 8) : tableSlots zeroSector j = SwapTable.zero := by
  show SwapTable.mk ((leEquiv 8).symm fun _ => 0) ((leEquiv 8).symm fun _ => 0) ((leEquiv 4).symm fun _ => 0)
    ((leEquiv 4).symm fun _ => 0) ((leEquiv 4).symm fun _ => 0) (fun _ => 0) ((leEquiv 4).symm fun _ => 0)
    ((leEquiv 8).symm fun _ => 0) = _
  simp only [leEquiv_symm_zero]
  rfl

/-- The sector holds the entries `ts`, and zeros behind them. -/
def Holds (b : Sector) (ts : List SwapTable) : Prop := ∀ j : Fin 8, tableSlots b j = ts.getD j SwapTable.zero

theorem holds_zero : Holds zeroSector [] := fun j => tableSlots_zero j

theorem Holds.put {b : Sector} {ts : List SwapTable} (h : Holds b ts) (hl : ts.length < 8) (t : SwapTable) :
    Holds (putTable b (.ofNat 8 ts.length) t) (ts ++ [t]) := by
  intro j
  have hval : (Fin.ofNat 8 ts.length).val = ts.length := Nat.mod_eq_of_lt hl
  rw [tableSlots_put]
  by_cases hj : j = Fin.ofNat 8 ts.length
  · subst hj
    rw [Function.update_self, hval]
    simp
  · have hne : j.val ≠ ts.length := fun he => hj (Fin.ext (he.trans hval.symm))
    rw [Function.update_of_ne hj, h j]
    rcases Nat.lt_or_ge j.val ts.length with hlt | hge
    · rw [List.getD_append _ _ _ _ hlt]
    · rw [List.getD_eq_default _ _ hge, List.getD_eq_default _ _ (by simp; omega)]

theorem zero_not_valid : SwapTable.zero.valid = false := by
  unfold SwapTable.valid SwapTable.zero
  simp

theorem Holds.entries {b : Sector} {ts : List SwapTable} (h : Holds b ts) (hl : ts.length ≤ 8)
    (hv : ∀ t ∈ ts, t.valid = true) : entriesOf b = ts := by
  have hslots : (List.finRange 8).map (tableSlots b) = ts ++ List.replicate (8 - ts.length) SwapTable.zero := by
    refine List.ext_getElem (by simp; omega) fun i h1 h2 => ?_
    rw [List.getElem_map, List.getElem_finRange, h]
    rcases Nat.lt_or_ge i ts.length with hlt | hge
    · rw [List.getElem_append_left hlt]
      simp [hlt]
    · rw [List.getElem_append_right hge, List.getElem_replicate]
      exact List.getD_eq_default _ _ hge
  unfold entriesOf
  rw [hslots, List.takeWhile_append_of_pos hv]
  cases 8 - ts.length with
  | zero => simp
  | succ n => rw [List.replicate_succ, List.takeWhile_cons_of_neg (by rw [zero_not_valid]; simp), List.append_nil]

/-- Every slot of the sector that looks like an entry is one of `ts`. -/
def SlotsIn (b : Sector) (ts : List SwapTable) : Prop :=
  ∀ j, (tableSlots b j).secSize = 128 → (tableSlots b j).strip ∈ ts

theorem SlotsIn.mono {b : Sector} {ts us : List SwapTable} (h : SlotsIn b ts) (hs : ∀ t ∈ ts, t ∈ us) :
    SlotsIn b us :=
  fun j hj => hs _ (h j hj)

theorem Holds.slotsIn {b : Sector} {ts : List SwapTable} (h : Holds b ts) :
    SlotsIn b (ts.map SwapTable.strip) := by
  intro j hj
  rw [h j] at hj ⊢
  rcases Nat.lt_or_ge j.val ts.length with hlt | hge
  · rw [List.getD_eq_getElem _ _ hlt]
    exact List.mem_map_of_mem (List.getElem_mem hlt)
  · rw [List.getD_eq_default _ _ hge] at hj
    exact absurd hj (by decide)

/-! ## Sectors of the reserve -/

/-- The sectors from offset `a` of the reserve on. -/
def area (disk : ℕ → Sector) (R a : ℕ) (k : ℕ) : Sector := disk ((R + (a + k)) % 2 ^ 32)

/-- Different sectors of the reserve have different addresses, however large the disk. -/
theorem addr_inj {R j k : ℕ} (hj : j < maxReservedSector) (hk : k < maxReservedSector)
    (h : (R + j) % 2 ^ 32 = (R + k) % 2 ^ 32) : j = k := by
  simp only [maxReservedSector] at hj hk
  omega

theorem area_update {disk : ℕ → Sector} {R a c j k : ℕ} {b : Sector} (hk : a + k < maxReservedSector)
    (hj : c + j < maxReservedSector) :
    area (Function.update disk ((R + (c + j)) % 2 ^ 32) b) R a k =
      if a + k = c + j then b else area disk R a k := by
  unfold area
  by_cases h : a + k = c + j
  · rw [if_pos h, h, Function.update_self]
  · rw [if_neg h, Function.update_of_ne fun he => h (addr_inj hk hj he)]

/-- `bad` says, by offset in the reserve at `R`, which single sectors cannot be written. A failed
write leaves the sector as it was. -/
structure Env.WriteFaults (E : Env) (R : ℕ) (bad : ℕ → Bool) : Prop where
  ok : ∀ t k buf, k < maxReservedSector → bad k = false → E.write t ⟨(R + k) % 2 ^ 32, 1, 5⟩ buf = .ok
  fail : ∀ t k buf, k < maxReservedSector → bad k = true →
    ∃ nc, E.write t ⟨(R + k) % 2 ^ 32, 1, 5⟩ buf = .fail (fun _ => none) nc

section flush

variable {R : ℕ} (hE : E.WriteFaults R bad)
include hE

theorem writeFaults_run {w : Writer} {k : ℕ} (hk : k < maxReservedSector) {b : Sector} {a : Bool}
    (h : (hdWriteSectorRetry E w (R + k) 1 fun _ => b).run s = some (a, s')) :
    a = !bad k ∧ s'.view = s.view ∧
      s'.disk = if bad k then s.disk else Function.update s.disk ((R + k) % 2 ^ 32) b := by
  have hv := (hdWriteSector_dev h).view
  obtain ⟨rfl, hd⟩ := hdWriteSector_one h
  cases hb : bad k with
  | false =>
    rw [hE.ok _ _ _ hk hb] at hd ⊢
    exact ⟨rfl, hv, hd⟩
  | true =>
    obtain ⟨nc, hw⟩ := hE.fail s.tick k (fun _ => b) hk hb
    rw [hw] at hd ⊢
    refine ⟨rfl, hv, hd.trans ?_⟩
    simp

/-- The skipping loop writes the buffer where `place` says. -/
theorem writeSkip_place {b : Sector} {a : ℕ} (ha : a + 1000 ≤ maxReservedSector) :
    ∀ {fuel pos t : ℕ} {s s' : World}, (writeSkip E b (R + a + 32) fuel (R + a + pos)).run s = some (t, s') →
      32 ≤ pos + fuel → max pos 32 < 1000 →
      let q := place (fun k => bad (a + k)) 32 pos
      t = R + a + q + 1 ∧ s'.view = s.view ∧
        s'.disk = if bad (a + q) then s.disk else Function.update s.disk ((R + (a + q)) % 2 ^ 32) b := by
  intro fuel
  induction fuel with
  | zero =>
    intro pos t s s' h hf hp
    unfold writeSkip at h
    obtain ⟨ok, s₁, h1, h2⟩ := run_bind_iff.1 h
    rw [show R + a + pos = R + (a + pos) by omega] at h1
    obtain ⟨-, hv, hd⟩ := writeFaults_run hE (by omega) h1
    rw [if_pos (Or.inr (by omega))] at h2
    obtain ⟨rfl, rfl⟩ := run_pure_iff.1 h2
    rw [place_last (by omega)]
    exact ⟨by omega, hv, hd⟩
  | succ fuel ih =>
    intro pos t s s' h hf hp
    unfold writeSkip at h
    obtain ⟨ok, s₁, h1, h2⟩ := run_bind_iff.1 h
    rw [show R + a + pos = R + (a + pos) by omega] at h1
    obtain ⟨rfl, hv, hd⟩ := writeFaults_run hE (by omega) h1
    by_cases hstop : bad (a + pos) = false ∨ 32 ≤ pos + 1
    · rw [if_pos (by rcases hstop with hb | hb; exacts [Or.inl (by rw [hb]; rfl), Or.inr (by omega)])] at h2
      obtain ⟨rfl, rfl⟩ := run_pure_iff.1 h2
      have hq : place (fun k => bad (a + k)) 32 pos = pos := by
        rcases hstop with hb | hb
        · exact place_ok hb
        · exact place_last hb
      rw [hq]
      exact ⟨by omega, hv, hd⟩
    · obtain ⟨hb', hlt⟩ := not_or.1 hstop
      have hb : bad (a + pos) = true := by simpa using hb'
      rw [hb] at hd h2
      rw [if_neg (not_or.2 ⟨by simp, by omega⟩)] at h2
      dsimp only at h2
      rw [show R + a + pos + 1 = R + a + (pos + 1) by omega] at h2
      obtain ⟨h3, h4, h5⟩ := ih h2 (by omega) (by omega)
      have hq : place (fun k => bad (a + k)) 32 pos = place (fun k => bad (a + k)) 32 (pos + 1) :=
        place_skip hb (by omega)
      rw [if_pos rfl] at hd
      rw [hq]
      exact ⟨h3, h4.trans hv, by rw [h5, hd]⟩

/-- The same, for the area as a whole. -/
theorem writeSkip_area {b : Sector} {a fuel pos t : ℕ} (ha : a + 1000 ≤ maxReservedSector)
    (h : (writeSkip E b (R + a + 32) fuel (R + a + pos)).run s = some (t, s')) (hf : 32 ≤ pos + fuel)
    (hp : max pos 32 < 1000) :
    t = R + a + place (fun k => bad (a + k)) 32 pos + 1 ∧ s'.view = s.view ∧
      (∀ k < 1000, area s'.disk R a k = writeOut (fun k => bad (a + k)) 32 [b] pos (area s.disk R a) k) ∧
      ∀ c k, c + k < maxReservedSector → (c + 1000 ≤ a ∨ a + 1000 ≤ c) → k < 1000 →
        area s'.disk R c k = area s.disk R c k := by
  obtain ⟨h1, h2, h3⟩ := writeSkip_place hE ha h hf hp
  have hq : place (fun k => bad (a + k)) 32 pos ≤ max pos 31 := (place_le _ _ _).2
  set q := place (fun k => bad (a + k)) 32 pos with hqdef
  refine ⟨h1, h2, ?_, ?_⟩
  · intro k hk
    unfold writeOut writeOut
    dsimp only
    rw [← hqdef]
    cases hb : bad (a + q) with
    | true => rw [h3, hb]; rfl
    | false =>
      rw [h3, hb, if_neg (by simp), if_neg (by simp), area_update (by omega) (by omega)]
      by_cases hkq : k = q
      · rw [hkq, if_pos rfl, Function.update_self]
      · rw [if_neg (by omega), Function.update_of_ne hkq]
  · intro c k hc hsep hk
    rw [h3]
    split
    · rfl
    · rw [area_update (by omega) (by omega), if_neg (by omega)]

/-- One table sector, in both areas. -/
theorem flushTableSector_area {b : Sector} {pos back : ℕ} {r : ℕ × ℕ}
    (h : (flushTableSector E b (R + swapTableOffset + pos) (R + swapTableBackupOffset + back)).run s =
      some (r, s'))
    (ht : s.core.sectorTable = R + swapTableOffset) (hr : s.core.sectorReserveStart = R)
    (hp : max pos 32 < 1000) (hb : max back 32 < 1000) :
    r = (R + swapTableOffset + place (fun k => bad (swapTableOffset + k)) 32 pos + 1,
        R + swapTableBackupOffset + place (fun k => bad (swapTableBackupOffset + k)) 32 back + 1) ∧
      s'.view = s.view ∧
      (∀ k < 1000, area s'.disk R swapTableOffset k =
        writeOut (fun k => bad (swapTableOffset + k)) 32 [b] pos (area s.disk R swapTableOffset) k) ∧
      ∀ k < 1000, area s'.disk R swapTableBackupOffset k =
        writeOut (fun k => bad (swapTableBackupOffset + k)) 32 [b] back
          (area s.disk R swapTableBackupOffset) k := by
  unfold flushTableSector at h
  rw [run_get_bind] at h
  dsimp only at h
  rw [ht, hr] at h
  obtain ⟨t, s₁, h1, h2⟩ := run_bind_iff.1 h
  obtain ⟨u, s₂, h3, h4⟩ := run_bind_iff.1 h2
  obtain ⟨rfl, rfl⟩ := run_pure_iff.1 h4
  simp only [swpaTableNSector] at h1 h3
  obtain ⟨rfl, hv1, ha1, ho1⟩ := writeSkip_area hE (by decide) h1 (by omega) hp
  obtain ⟨rfl, hv2, ha2, ho2⟩ := writeSkip_area hE (by decide) h3 (by omega) hb
  refine ⟨rfl, hv2.trans hv1, ?_, ?_⟩
  · intro k hk
    rw [ho2 _ k (by simp only [swapTableOffset, sector8M, maxReservedSector]; omega) (Or.inl (by decide)) hk]
    exact ha1 k hk
  · intro k hk
    rw [ha2 k hk]
    refine writeOut_congr ?_
    exact ho1 _ k (by simp only [swapTableBackupOffset, sector8M, maxReservedSector]; omega)
      (Or.inr (by decide)) hk

omit hE in
theorem Holds.content {b : Sector} {ts : List SwapTable} (h : Holds b ts) (hl : ts.length ≤ 8)
    (hv : ∀ t ∈ ts, t.valid = true) : content b = ts.map SwapTable.strip := by
  unfold ScsiSwap.content
  rw [h.entries hl hv]

/-- **The loop over the list.** `cur` is what the current sector already holds. -/
theorem flushTableLoop_area : ∀ (ps : List ℕ) (cur : List SwapTable) (buffer : Sector) (pos back : ℕ)
    {s s' : World} {u : PUnit},
    (flushTableLoop E ps cur.length buffer (R + swapTableOffset + pos) (R + swapTableBackupOffset + back)).run s =
      some (u, s') →
    s.core.sectorTable = R + swapTableOffset → s.core.sectorReserveStart = R → cur.length < 8 →
    (cur ≠ [] → Holds buffer cur) → (∀ t ∈ cur, t.valid = true) →
    (∀ p ∈ ps, (s.view.info p).table.valid = true) → max pos 32 + ps.length < 1000 →
    max back 32 + ps.length < 1000 →
    s'.view = s.view ∧ ∃ bs : List Sector,
      bs.map content = pack 8 (ps.map fun p => (s.view.info p).table) (cur.map SwapTable.strip) ∧
      (∀ b ∈ bs, SlotsIn b (cur.map SwapTable.strip ++ ps.map fun p => (s.view.info p).table)) ∧
      (∀ k < 1000, area s'.disk R swapTableOffset k =
        writeOut (fun k => bad (swapTableOffset + k)) 32 bs pos (area s.disk R swapTableOffset) k) ∧
      ∀ k < 1000, area s'.disk R swapTableBackupOffset k =
        writeOut (fun k => bad (swapTableBackupOffset + k)) 32 bs back
          (area s.disk R swapTableBackupOffset) k := by
  intro ps
  induction ps with
  | nil =>
    intro cur buffer pos back s s' u h ht hr hcur hbuf hval _ hp hb
    unfold flushTableLoop at h
    by_cases hc : cur = []
    · subst hc
      rw [if_neg (by simp)] at h
      obtain ⟨-, rfl⟩ := run_pure_iff.1 h
      exact ⟨rfl, [], rfl, by simp, fun _ _ => rfl, fun _ _ => rfl⟩
    · rw [if_pos (by simpa using hc)] at h
      obtain ⟨r, s₁, h1, h2⟩ := run_bind_iff.1 h
      obtain ⟨-, rfl⟩ := run_pure_iff.1 h2
      obtain ⟨-, hv, hm, hbk⟩ := flushTableSector_area hE h1 ht hr (by simpa using hp) (by simpa using hb)
      refine ⟨hv, [buffer], ?_, ?_, hm, hbk⟩
      · simp [pack, hc, (hbuf hc).content hcur.le hval]
      · intro b hb
        rw [List.mem_singleton.1 hb, List.map_nil, List.append_nil]
        exact (hbuf hc).slotsIn
  | cons p ps ih =>
    intro cur buffer pos back s s' u h ht hr hcur hbuf hval hps hp hb
    rw [List.length_cons] at hp hb
    unfold flushTableLoop at h
    rw [run_get_bind] at h
    dsimp only at h
    rw [run_set_bind] at h
    set t : SwapTable := { (s.heap p).table with saveSec := .ofNat 64 (R + swapTableOffset + pos) } with htdef
    set s₀ := s.setInfo p { s.heap p with table := t }
    have hv0 : s₀.view = s.view := (setInfo_saveSec_dev (A := fun _ => True) p _).view
    have ht0 : t.strip = (s.view.info p).table := rfl
    have htv : t.valid = true := by
      rw [← SwapTable.strip_valid, ht0]
      exact hps p List.mem_cons_self
    set buf := putTable (if cur.length = 0 then zeroSector else buffer) (.ofNat 8 cur.length) t
    have hhold : Holds buf (cur ++ [t]) := by
      refine Holds.put ?_ hcur t
      by_cases hc : cur = []
      · subst hc; exact holds_zero
      · rw [if_neg (by simpa using hc)]; exact hbuf hc
    have hval' : ∀ x ∈ cur ++ [t], x.valid = true := by
      intro x hx
      rcases List.mem_append.1 hx with hx | hx
      · exact hval x hx
      · rw [List.mem_singleton.1 hx]; exact htv
    have hps' : ∀ q ∈ ps, (s₀.view.info q).table.valid = true := by
      intro q hq
      rw [hv0]
      exact hps q (List.mem_cons_of_mem _ hq)
    have hmap : (cur ++ [t]).map SwapTable.strip =
        cur.map SwapTable.strip ++ [(s.view.info p).table] := by simp [ht0]
    by_cases hfull : cur.length = 7
    · -- the sector is full and goes out
      rw [if_pos hfull] at h
      obtain ⟨r, s₁, h1, h2⟩ := run_bind_iff.1 h
      obtain ⟨rfl, hv1, hm1, hb1⟩ := flushTableSector_area hE h1 ht hr (by omega) (by omega)
      have hq : place (fun k => bad (swapTableOffset + k)) 32 pos ≤ max pos 31 := (place_le _ _ _).2
      have hq' : place (fun k => bad (swapTableBackupOffset + k)) 32 back ≤ max back 31 := (place_le _ _ _).2
      have hv : s₁.view = s.view := hv1.trans hv0
      dsimp only at h2
      rw [Nat.add_assoc (R + swapTableOffset), Nat.add_assoc (R + swapTableBackupOffset)] at h2
      obtain ⟨hv2, bs, hbs, hin, hm2, hb2⟩ := ih [] _ _ _ h2 ((congrArg (fun v => v.geom.table) hv).trans ht)
        ((congrArg (fun v => v.geom.reserve) hv).trans hr) (by simp) (by simp) (by simp)
        (by rw [hv1]; exact hps') (by omega) (by omega)
      refine ⟨hv2.trans hv, buf :: bs, ?_, ?_, ?_, ?_⟩
      · simp only [List.map_cons]
        rw [hbs, hhold.content (by simp; omega) hval', hmap, hv]
        exact (pack_full (by simp; omega)).symm
      · intro b hb
        rcases List.mem_cons.1 hb with rfl | hb
        · refine hhold.slotsIn.mono fun x hx => ?_
          rw [hmap] at hx
          rw [List.map_cons, List.append_cons]
          exact List.mem_append_left _ hx
        · refine (hin b hb).mono fun x hx => ?_
          rw [hv, List.map_nil, List.nil_append] at hx
          exact List.mem_append_right _ (List.mem_cons_of_mem _ hx)
      · intro k hk
        rw [hm2 k hk]
        exact writeOut_congr (hm1 k hk)
      · intro k hk
        rw [hb2 k hk]
        exact writeOut_congr (hb1 k hk)
    · rw [if_neg hfull] at h
      have hlen : (cur ++ [t]).length = cur.length + 1 := by simp
      rw [← hlen] at h
      obtain ⟨hv2, bs, hbs, hin, hm2, hb2⟩ :=
        ih _ _ _ _ h ht hr (by omega) (fun _ => hhold) hval' hps' (by omega) (by omega)
      refine ⟨hv2.trans hv0, bs, ?_, ?_, hm2, hb2⟩
      · rw [hbs, hmap, hv0]
        exact (pack_part (by simp; omega)).symm
      · intro b hb
        refine (hin b hb).mono fun x hx => ?_
        rw [hmap, hv0, ← List.append_cons] at hx
        exact hx

/-- **What `flush_swap_info_table` leaves in the two areas**, whichever sectors fail. -/
theorem flushSwapInfoTable_area {a : Bool} (h : (flushSwapInfoTable E).run s = some (a, s'))
    (ht : s.core.sectorTable = R + swapTableOffset) (hr : s.core.sectorReserveStart = R)
    (hval : ∀ p ∈ s.core.infoList, (s.heap p).table.valid = true)
    (hlen : s.core.infoList.length ≤ maxSwapBlockForUse) :
    s'.view = s.view ∧ ∃ bs : List Sector,
      bs.map content = pack 8 (s.core.infoList.map fun p => (s.heap p).table.strip) [] ∧
      (∀ b ∈ bs, SlotsIn b (s.core.infoList.map fun p => (s.heap p).table.strip)) ∧
      (∀ k < 1000, area s'.disk R swapTableOffset k =
        writeOut (fun k => bad (swapTableOffset + k)) 32 bs 0 (area s.disk R swapTableOffset) k) ∧
      ∀ k < 1000, area s'.disk R swapTableBackupOffset k =
        writeOut (fun k => bad (swapTableBackupOffset + k)) 32 bs 0 (area s.disk R swapTableBackupOffset) k := by
  unfold flushSwapInfoTable at h
  rw [run_get_bind] at h
  obtain ⟨u, s₁, h1, h2⟩ := run_bind_iff.1 h
  obtain ⟨-, rfl⟩ := run_pure_iff.1 h2
  rw [ht, hr] at h1
  simp only [maxSwapBlockForUse] at hlen
  exact flushTableLoop_area hE _ [] _ 0 0 h1 ht hr (by simp) (by simp) (by simp)
    (fun p hp => (SwapTable.strip_valid _).trans (hval p hp)) (by omega) (by omega)

end flush

/-! ## Loading -/

/-- Nothing but the disk, the clock and `device_dead` has changed. -/
structure Calm (s s' : World) : Prop where
  core : s'.core = { s.core with deviceDead := s'.core.deviceDead }
  log : s'.log = s.log
  heap : s'.heap = s.heap
  brk : s'.brk = s.brk

theorem Calm.refl (s : World) : Calm s s := ⟨rfl, rfl, rfl, rfl⟩

theorem Calm.trans {s₁ s₂ s₃ : World} (h : Calm s₁ s₂) (h' : Calm s₂ s₃) : Calm s₁ s₃ :=
  ⟨by rw [h'.core, h.core], h'.log.trans h.log, h'.heap.trans h.heap, h'.brk.trans h.brk⟩

theorem hdReadSector_calm {r sector n : ℕ} {a : Bool × (ℕ → Option Sector)}
    (h : (hdReadSector E r sector n).run s = some (a, s')) : Calm s s' ∧ s'.disk = s.disk := by
  rw [hdReadSector_run] at h
  obtain ⟨-, rfl⟩ := Prod.mk.inj (Option.some.inj h)
  exact ⟨⟨rfl, rfl, rfl, rfl⟩, rfl⟩

theorem hdWriteSector_calm {w : Writer} {r sector n : ℕ} {buf : ℕ → Sector} {a : Bool}
    (h : (hdWriteSector E w r sector n buf).run s = some (a, s')) : Calm s s' := by
  rw [hdWriteSector_run] at h
  obtain ⟨-, rfl⟩ := Prod.mk.inj (Option.some.inj h)
  exact ⟨rfl, rfl, rfl, rfl⟩

theorem hdWriteSector_true {w : Writer} {k sector : ℕ} {b : Sector}
    (h : (hdWriteSector E w k sector 1 fun _ => b).run s = some (true, s')) :
    s'.disk = Function.update s.disk (sector % 2 ^ 32) b := by
  obtain ⟨hok, hd⟩ := hdWriteSector_one h
  cases hio : E.write s.tick ⟨sector % 2 ^ 32, 1, k⟩ fun _ => b with
  | ok => rw [hd, hio]
  | fail junk nc => rw [hio] at hok; exact absurd hok (by simp [IoResult.isOk])

/-- The skipping loop ends. -/
theorem writeSkip_runs (E : Env) (b : Sector) (limit : ℕ) : ∀ (fuel sect : ℕ) (s : World),
    ∃ t s', (writeSkip E b limit fuel sect).run s = some (t, s') ∧ Calm s s' := by
  intro fuel
  induction fuel with
  | zero =>
    intro sect s
    obtain ⟨ok, s₁, h1⟩ : ∃ ok s₁, (hdWriteSectorRetry E .table sect 1 fun _ => b).run s = some (ok, s₁) :=
      ⟨_, _, hdWriteSector_run ..⟩
    refine ⟨sect + 1, s₁, ?_, hdWriteSector_calm h1⟩
    unfold writeSkip
    rw [run_bind_of h1]
    split <;> rfl
  | succ fuel ih =>
    intro sect s
    obtain ⟨ok, s₁, h1⟩ : ∃ ok s₁, (hdWriteSectorRetry E .table sect 1 fun _ => b).run s = some (ok, s₁) :=
      ⟨_, _, hdWriteSector_run ..⟩
    have hc := hdWriteSector_calm h1
    unfold writeSkip
    rw [run_bind_of h1]
    split
    · exact ⟨sect + 1, s₁, rfl, hc⟩
    · obtain ⟨t, s', h2, hc'⟩ := ih (sect + 1) s₁
      exact ⟨t, s', h2, hc.trans hc'⟩

/-- The entries `es` were appended to the list, each with data for which `Q` holds. -/
structure Loads (Q : SwapTable → Block → Prop) (es : List SwapTable) (s s' : World) : Prop where
  list : ∃ ps, s'.core.infoList = s.core.infoList ++ ps ∧ ps.Nodup ∧ (∀ p ∈ ps, s.brk ≤ p ∧ p < s'.brk) ∧
    ps.map (fun p => (s'.heap p).table) = es ∧ ∀ p ∈ ps, ∃ d, (s'.heap p).data = some d ∧ Q (s'.heap p).table d
  num : s'.core.infoNum = s.core.infoNum + es.length
  heap : ∀ q < s.brk, s'.heap q = s.heap q
  brk : s.brk ≤ s'.brk
  geom : s'.geom = s.geom
  head : s'.core.head = s.core.head

section load

variable {Q : SwapTable → Block → Prop}

theorem Calm.loads (h : Calm s s') : Loads Q [] s s' := by
  obtain ⟨h1, h2, h3, h4⟩ := h
  refine ⟨⟨[], ?_, List.nodup_nil, by simp, rfl, by simp⟩, ?_, fun q _ => by rw [h3], h4.ge, ?_, ?_⟩
  · rw [h1, List.append_nil]
  · rw [h1]; rfl
  · unfold World.geom; rw [h1, h2]
  · rw [h1]

theorem Loads.trans {s₁ s₂ s₃ : World} {es fs : List SwapTable} (h : Loads Q es s₁ s₂) (h' : Loads Q fs s₂ s₃) :
    Loads Q (es ++ fs) s₁ s₃ := by
  obtain ⟨⟨ps, l1, n1, b1, t1, d1⟩, num1, heap1, brk1, geom1, head1⟩ := h
  obtain ⟨⟨qs, l2, n2, b2, t2, d2⟩, num2, heap2, brk2, geom2, head2⟩ := h'
  have hps : ∀ p ∈ ps, s₃.heap p = s₂.heap p := fun p hp => heap2 p (b1 p hp).2
  refine ⟨⟨ps ++ qs, ?_, ?_, ?_, ?_, ?_⟩, ?_, ?_, brk1.trans brk2, geom2.trans geom1, head2.trans head1⟩
  · rw [l2, l1, List.append_assoc]
  · refine List.Nodup.append n1 n2 fun p hp hq => ?_
    have := (b1 p hp).2
    have := (b2 p hq).1
    omega
  · intro p hp
    rcases List.mem_append.1 hp with hp | hp
    · exact ⟨(b1 p hp).1, (b1 p hp).2.trans_le brk2⟩
    · exact ⟨brk1.trans (b2 p hp).1, (b2 p hp).2⟩
  · rw [List.map_append, t2, ← t1]
    congr 1
    exact List.map_congr_left fun p hp => by rw [hps p hp]
  · intro p hp
    rcases List.mem_append.1 hp with hp | hp
    · rw [hps p hp]; exact d1 p hp
    · exact d2 p hp
  · rw [num2, num1, List.length_append]; omega
  · intro q hq
    rw [heap2 q (hq.trans_le brk1), heap1 q hq]

/-- An entry the loader accepts. -/
structure SwapTable.Accepted (g : Geom) (t : SwapTable) : Prop where
  size : t.secSize = 128
  crc : t.crc = t.checksum
  swap : g.data ≤ t.swapSec.toNat
  src : t.srcSec.toNat ≤ g.reserve

theorem SwapTable.Accepted.valid {g : Geom} {t : SwapTable} (h : t.Accepted g) : t.valid = true := by
  unfold SwapTable.valid
  rw [h.size, h.crc]
  simp

theorem SwapTable.accepted_strip {g : Geom} {t : SwapTable} (h : t.strip.Accepted g) : t.Accepted g :=
  ⟨h.size, (crc_congr (t := t) (u := t.strip) rfl).trans h.crc, h.swap, h.src⟩

/-- The data of an entry, on the disk. -/
def blockAt (disk : ℕ → Sector) (t : SwapTable) : Block := fun k => disk (t.swapSec.toNat % 2 ^ 32 + k)

/-- An entry that passes the tests of the loader, and whose data can be read. -/
structure Loadable (E : Env) (g : Geom) (t : SwapTable) : Prop where
  crc : t.crc = t.checksum
  swap : g.data ≤ t.swapSec.toNat
  src : t.srcSec.toNat ≤ g.reserve
  data : ∀ tick, E.read tick ⟨t.swapSec.toNat % 2 ^ 32, 128, 5⟩ = .ok

theorem allocSwapInfoData_ok (hk : E.kmalloc s.tick = true) {start : ℕ}
    (hr : ∀ tick, E.read tick ⟨start % 2 ^ 32, 128, 5⟩ = .ok) :
    ∃ s', (allocSwapInfoData E start 128).run s = some (some fun k : Fin 128 => s.disk (start % 2 ^ 32 + k), s') ∧
      Calm s s' ∧ s'.disk = s.disk := by
  unfold allocSwapInfoData
  rw [run_bind_of (kmalloc_run E s), if_pos hk]
  have h := hdReadSector_run (E := E) (s := { s with tick := s.tick + 1 }) 5 start 128
  dsimp only at h
  rw [show 128 % 2 ^ 16 = 128 from rfl, hr] at h
  rw [run_bind_of (x := hdReadSectorRetry E start 128) h]
  obtain ⟨hc, hd⟩ := hdReadSector_calm h
  refine ⟨_, ?_, ⟨hc.core, hc.log, hc.heap, hc.brk⟩, hd⟩
  have hbuf : (fun k : Fin 128 => ((if k.val < 128 then some (s.disk (start % 2 ^ 32 + k)) else none :
      Option Sector)).getD zeroSector) = fun k : Fin 128 => s.disk (start % 2 ^ 32 + k) := by
    funext k
    rw [if_pos k.isLt]
    rfl
  exact congrArg (fun d => some (some d, _)) hbuf

theorem loadSlot_loaded (hk : E.kmalloc s.tick = true) (hk' : E.kmalloc (s.tick + 1) = true) {t : SwapTable}
    (hs : t.secSize = 128)
    (hl : Loadable E s.geom t) : ∃ s', (loadSlot E t).run s = some ((.loaded, t), s') ∧ s'.disk = s.disk ∧
      Loads (fun t d => d = blockAt s.disk t) [t] s s' := by
  have hrange : ¬ (t.swapSec.toNat < s.core.sectorData ∨ t.srcSec.toNat > s.core.sectorReserveStart) := by
    have h1 := hl.swap
    have h2 := hl.src
    simp only [World.geom] at h1 h2
    omega
  unfold loadSlot
  rw [run_bind_of (kmalloc_run E s), if_pos hk, run_get_bind]
  dsimp only
  rw [run_set_bind, if_neg (by simp [hs]), if_neg hrange, if_neg (by simp [hl.crc])]
  rw [show t.secSize.toNat = 128 by rw [hs]; rfl]
  obtain ⟨s₁, h1, hc, hd⟩ := allocSwapInfoData_ok (E := E) hk' hl.data
    (s := { (World.setInfo { s with tick := s.tick + 1 } s.brk ⟨t, none⟩) with brk := s.brk + 1 })
  have hheap : s₁.heap = Function.update s.heap s.brk ⟨t, none⟩ := hc.heap
  have hcore : s₁.core = { s.core with deviceDead := s₁.core.deviceDead } := hc.core
  have hbrk : s₁.brk = s.brk + 1 := hc.brk
  have hself : ∀ i, (s₁.setInfo s.brk i).heap s.brk = i := fun i => Function.update_self ..
  have htab : (s₁.heap s.brk).table = t := by rw [hheap, Function.update_self]
  rw [run_bind_of h1, run_modify_bind]
  refine ⟨_, congrArg some (Prod.ext (Prod.ext rfl ?_) rfl), hd, ?_⟩
  · exact (congrArg SwapInfo.table (hself _)).trans htab
  · refine ⟨⟨[s.brk], ?_, List.nodup_singleton _, ?_, ?_, ?_⟩, ?_, ?_, ?_, ?_, ?_⟩
    · show s₁.core.infoList ++ [s.brk] = _
      rw [hcore]
    · intro p hp
      rw [List.mem_singleton.1 hp]
      exact ⟨le_rfl, by show s.brk < s₁.brk; omega⟩
    · show [((s₁.setInfo s.brk _).heap s.brk).table] = [t]
      rw [hself, htab]
    · intro p hp
      rw [List.mem_singleton.1 hp]
      refine ⟨_, congrArg SwapInfo.data (hself _), ?_⟩
      show _ = blockAt s.disk ((s₁.setInfo s.brk _).heap s.brk).table
      rw [hself, htab]
      rfl
    · show s₁.core.infoNum + 1 = s.core.infoNum + 1
      rw [hcore]
    · intro q hq
      show Function.update s₁.heap s.brk _ q = s.heap q
      rw [Function.update_of_ne (by omega), hheap, Function.update_of_ne (by omega)]
    · show s.brk ≤ s₁.brk
      omega
    · have hlog : s₁.log = s.log := hc.log
      show (⟨s₁.core.sectorReserveStart, s₁.core.sectorHead, s₁.core.sectorTable, s₁.core.sectorData,
        s₁.log.sectorHead, s₁.log.sectorData, s₁.log.ring.map (·.itemCap)⟩ : Geom) = _
      rw [hcore, hlog]
      rfl
    · show s₁.core.head = s.core.head
      rw [hcore]

theorem loadSlot_stop (hk : E.kmalloc s.tick = true) {t : SwapTable} (hs : t.secSize ≠ 128) :
    ∃ s', (loadSlot E t).run s = some ((.stop, t), s') ∧ s'.disk = s.disk ∧ Loads Q [] s s' := by
  unfold loadSlot
  rw [run_bind_of (kmalloc_run E s), if_pos hk, run_get_bind]
  dsimp only
  rw [run_set_bind, if_pos hs]
  refine ⟨_, rfl, rfl, ⟨[], by simp [World.setInfo], List.nodup_nil, by simp, rfl, by simp⟩, rfl, ?_,
    Nat.le_succ _, rfl, rfl⟩
  intro q hq
  exact Function.update_of_ne (by omega) _ _

theorem Loads.mono {Q' : SwapTable → Block → Prop} {es : List SwapTable} (h : Loads Q es s s')
    (hQ : ∀ t d, Q t d → Q' t d) : Loads Q' es s s' := by
  obtain ⟨⟨ps, l, n, b, t, d⟩, num, heap, brk, geom, head⟩ := h
  refine ⟨⟨ps, l, n, b, t, fun p hp => ?_⟩, num, heap, brk, geom, head⟩
  obtain ⟨x, hx, hq⟩ := d p hp
  exact ⟨x, hx, hQ _ _ hq⟩

theorem putTable_self (b : Sector) (j : Fin 8) : putTable b j (tableSlots b j) = b := by
  unfold putTable tableSlots putChunk
  rw [Equiv.apply_symm_apply, Function.update_eq_self, Equiv.symm_apply_apply]

/-- Every slot of the sector that looks like an entry is one the loader accepts. -/
def Packed (E : Env) (g : Geom) (b : Sector) :
    Prop := ∀ j, (tableSlots b j).secSize = 128 → Loadable E g (tableSlots b j)

theorem Packed.valid_iff {g : Geom} {b : Sector} (h : Packed E g b) (j : Fin 8) :
    (tableSlots b j).valid = true ↔ (tableSlots b j).secSize = 128 := by
  unfold SwapTable.valid
  rw [decide_eq_true_iff]
  exact ⟨And.left, fun hs => ⟨hs, (h j hs).crc⟩⟩

theorem Packed.ended {g : Geom} {b : Sector} (h : Packed E g b) : ∀ t ∈ endOf b, t.secSize ≠ 128 := by
  intro t ht hs
  have hne : ((List.finRange 8).map (tableSlots b)).dropWhile SwapTable.valid ≠ [] := by
    intro he
    simp [endOf, he] at ht
  have hnot := List.head_dropWhile_not SwapTable.valid hne
  unfold endOf at ht
  rw [List.head?_eq_some_head hne, Option.mem_some_iff] at ht
  have hmem := (List.dropWhile_sublist _).subset (List.head_mem hne)
  rw [ht] at hnot hmem
  obtain ⟨j, -, rfl⟩ := List.mem_map.1 hmem
  rw [(h.valid_iff j).2 hs] at hnot
  exact absurd hnot (by simp)

/-- The slots of one sector, when nothing that looks like an entry ends them. -/
theorem loadSlots_scan (hk : ∀ t, E.kmalloc t = true) {b : Sector} : ∀ (js : List (Fin 8)) {s : World},
    (∀ t ∈ (js.map (tableSlots b)).takeWhile SwapTable.valid, Loadable E s.geom t) →
    (∀ t ∈ ((js.map (tableSlots b)).dropWhile SwapTable.valid).head?, t.secSize ≠ 128) →
    ∃ r s', (loadSlots E js b).run s = some ((r, b), s') ∧ r ≠ .error ∧ s'.disk = s.disk ∧
      Loads (fun t d => d = blockAt s.disk t) ((js.map (tableSlots b)).takeWhile SwapTable.valid) s s' ∧
      (r = .loaded ↔ ((js.map (tableSlots b)).takeWhile SwapTable.valid).length = js.length) := by
  intro js
  induction js with
  | nil =>
    intro s _ _
    exact ⟨.loaded, s, rfl, by simp, rfl, (Calm.refl s).loads, by simp⟩
  | cons j js ih =>
    intro s hload hend
    unfold loadSlots
    rw [List.map_cons] at hload hend ⊢
    by_cases hv : (tableSlots b j).valid = true
    · have hs : (tableSlots b j).secSize = 128 := (of_decide_eq_true hv).1
      rw [List.dropWhile_cons_of_pos hv] at hend
      rw [List.takeWhile_cons_of_pos hv, List.forall_mem_cons] at hload
      obtain ⟨s₁, h1, hd1, hl1⟩ := loadSlot_loaded (hk _) (hk _) hs hload.1
      obtain ⟨r, s₂, h2, hr, hd2, hl2, hiff⟩ := ih (s := s₁) (hl1.geom ▸ hload.2) hend
      rw [List.takeWhile_cons_of_pos hv]
      refine ⟨r, s₂, ?_, hr, hd2.trans hd1, ?_, ?_⟩
      · rw [run_bind_of h1]
        dsimp only
        rw [if_pos rfl, putTable_self]
        exact h2
      · rw [hd1] at hl2
        exact hl1.trans hl2
      · rw [hiff, List.length_cons, List.length_cons]
        omega
    · rw [List.dropWhile_cons_of_neg hv, List.head?_cons] at hend
      obtain ⟨s₁, h1, hd1, hl1⟩ := loadSlot_stop (Q := fun t d => d = blockAt s.disk t) (s := s)
        (hk _) (hend _ rfl)
      rw [List.takeWhile_cons_of_neg hv]
      refine ⟨.stop, s₁, ?_, by simp, hd1, hl1, by simp⟩
      rw [run_bind_of h1]
      dsimp only
      rw [if_neg (by simp), putTable_self]
      rfl

/-- `bad` says, by offset in the reserve at `R`, which single sectors cannot be read. -/
structure Env.ReadFaults (E : Env) (R : ℕ) (bad : ℕ → Bool) : Prop where
  ok : ∀ t k, k < maxReservedSector → bad k = false → E.read t ⟨(R + k) % 2 ^ 32, 1, 5⟩ = .ok
  fail : ∀ t k, k < maxReservedSector → bad k = true → (E.read t ⟨(R + k) % 2 ^ 32, 1, 5⟩).isOk = false

theorem readFaults_run {R : ℕ} (hE : E.ReadFaults R bad) {k : ℕ} (hk : k < maxReservedSector) :
    ∃ buf s', (hdReadSectorRetry E (R + k) 1).run s = some ((!bad k, buf), s') ∧ Calm s s' ∧ s'.disk = s.disk ∧
      (bad k = false → buf 0 = some (s.disk ((R + k) % 2 ^ 32))) := by
  have h := hdReadSector_run (E := E) (s := s) 5 (R + k) 1
  rw [show 1 % 2 ^ 16 = 1 from rfl] at h
  dsimp only at h
  cases hb : bad k with
  | false =>
    rw [hE.ok _ _ hk hb] at h
    obtain ⟨hc, hd⟩ := hdReadSector_calm h
    exact ⟨_, _, h, hc, hd, fun _ => rfl⟩
  | true =>
    have hf := hE.fail s.tick k hk hb
    rw [hf] at h
    obtain ⟨hc, hd⟩ := hdReadSector_calm h
    exact ⟨_, _, h, hc, hd, by simp⟩

/-- All reads succeed. -/
def Env.Readable (E : Env) : Prop := ∀ t c, E.read t c = .ok

theorem Env.Readable.faults (hE : E.Readable) (R : ℕ) : E.ReadFaults R fun _ => false :=
  ⟨fun _ _ _ _ => hE _ _, fun _ _ _ h => absurd h (by simp)⟩

/-- A table area as the loader sees it. -/
def seen (bad : ℕ → Bool) (disk : ℕ → Sector) (R a : ℕ) (k : ℕ) : Option (List SwapTable) :=
  if bad (a + k) then none else some (entriesOf (area disk R a k))

theorem seen_readable (disk : ℕ → Sector) (R a k : ℕ) :
    seen (fun _ => false) disk R a k = some (entriesOf (area disk R a k)) := by
  unfold seen
  rw [if_neg (by simp)]

/-- The slot that ends the entries of a table area, if it is not full. -/
def tableEnd (bad : ℕ → Bool) (disk : ℕ → Sector) (R a : ℕ) : ℕ → ℕ → Option SwapTable
  | 0, _ => none
  | n + 1, k =>
    if bad (a + k) then tableEnd bad disk R a n (k + 1)
    else (endOf (area disk R a k)).or (tableEnd bad disk R a n (k + 1))

theorem tableEnd_congr {disk disk' : ℕ → Sector} {R a : ℕ} : ∀ {n k : ℕ},
    (∀ i, k ≤ i → i < k + n → area disk R a i = area disk' R a i) →
    tableEnd bad disk R a n k = tableEnd bad disk' R a n k := by
  intro n
  induction n with
  | zero => intro k _; rfl
  | succ n ih =>
    intro k h
    unfold tableEnd
    rw [h k le_rfl (by omega), ih fun i h1 h2 => h i (by omega) (by omega)]

/-- What ends the entries is the end of a sector that can be read. -/
theorem mem_tableEnd {disk : ℕ → Sector} {R a : ℕ} {t : SwapTable} : ∀ {n k : ℕ}, t ∈ tableEnd bad disk R a n k →
    ∃ i, k ≤ i ∧ i < k + n ∧ bad (a + i) = false ∧ t ∈ endOf (area disk R a i) := by
  intro n
  induction n with
  | zero => intro k ht; simp [tableEnd] at ht
  | succ n ih =>
    intro k ht
    unfold tableEnd at ht
    cases hb : bad (a + k) with
    | true =>
      rw [hb, if_pos rfl] at ht
      obtain ⟨i, h1, h2, h3⟩ := ih ht
      exact ⟨i, by omega, by omega, h3⟩
    | false =>
      rw [hb, if_neg (by simp), Option.mem_def, Option.or_eq_some_iff] at ht
      rcases ht with ht | ⟨-, ht⟩
      · exact ⟨k, le_rfl, by omega, hb, ht⟩
      · obtain ⟨i, h1, h2, h3⟩ := ih ht
        exact ⟨i, by omega, by omega, h3⟩

theorem tableEnd_of_packed {g : Geom} {disk : ℕ → Sector} {R a n k : ℕ} (hk : k + n ≤ 32)
    (hp : ∀ i < 32, bad (a + i) = false → Packed E g (area disk R a i)) :
    ∀ t ∈ tableEnd bad disk R a n k, t.secSize ≠ 128 := by
  intro t ht
  obtain ⟨i, -, hi, hb, hend⟩ := mem_tableEnd ht
  exact (hp i (by omega) hb).ended t hend

section

variable {R a : ℕ} (hE : E.ReadFaults R bad) (ha : a + 1000 ≤ maxReservedSector)
include hE ha

theorem calcSwapInfoNum_scan : ∀ {n k : ℕ} {s : World} (total : ℕ), k + n ≤ 32 →
    ∃ s', (calcSwapInfoNum E n (R + (a + k)) total).run s =
        some (total + (scan 8 (seen bad s.disk R a) n k).length, s') ∧ Calm s s' ∧ s'.disk = s.disk := by
  intro n
  induction n with
  | zero => intro k s total _; exact ⟨s, rfl, Calm.refl s, rfl⟩
  | succ n ih =>
    intro k s total hk
    obtain ⟨buf, s₁, h1, hc, hd, hbuf⟩ := readFaults_run (s := s) hE (show a + k < maxReservedSector by omega)
    unfold calcSwapInfoNum scan
    rw [run_bind_of h1]
    dsimp only
    cases hb : bad (a + k) with
    | true =>
      obtain ⟨s', h2, hc', hd'⟩ := ih (k := k + 1) (s := s₁) total (by omega)
      refine ⟨s', ?_, hc.trans hc', hd'.trans hd⟩
      rw [show seen bad s.disk R a k = none by unfold seen; rw [hb]; rfl, if_neg (by simp)]
      rw [hd] at h2
      exact h2
    | false =>
      have hs : seen bad s.disk R a k = some (entriesOf (area s.disk R a k)) := by unfold seen; rw [hb]; rfl
      rw [hs, hbuf hb]
      dsimp only
      rw [if_pos (show (!false) = true from rfl), Option.getD_some, validEntries_eq]
      have harea : s.disk ((R + (a + k)) % 2 ^ 32) = area s.disk R a k := rfl
      rw [harea]
      by_cases hlt : (entriesOf (area s.disk R a k)).length < 8
      · rw [if_pos hlt, if_pos hlt]
        exact ⟨s₁, rfl, hc, hd⟩
      · rw [if_neg hlt, if_neg hlt]
        obtain ⟨s', h2, hc', hd'⟩ := ih (k := k + 1) (s := s₁) (total + 8) (by omega)
        have hfull : (entriesOf (area s.disk R a k)).length = 8 := by
          have := entriesOf_length_le (area s.disk R a k)
          omega
        refine ⟨s', ?_, hc.trans hc', hd'.trans hd⟩
        rw [hd] at h2
        rw [List.length_append, hfull, ← Nat.add_assoc total]
        exact h2

omit hE in
/-- The copy that lags behind is written, if there is one; the other one stays as it is. -/
theorem syncWrite_runs {sync : TableSync} {c k limit pos : ℕ} {b : Sector} (s : World) (hk : k < 32)
    (hc : c + 1000 ≤ maxReservedSector) (hsep : c + 1000 ≤ a ∨ a + 1000 ≤ c)
    (hpos : sync ≠ .noNeedSync → limit = R + c + 32 ∧ ∃ m ≤ 32 + k, pos = R + c + m) :
    ∃ pos' s', ((if sync = .noNeedSync then pure pos
        else writeSkip E b limit (limit - pos) pos : SwapM ℕ)).run s = some (pos', s') ∧
      Calm s s' ∧ (sync = .noNeedSync → s'.disk = s.disk) ∧
      (∀ i < 32, area s'.disk R a i = area s.disk R a i) ∧
      (sync ≠ .noNeedSync → limit = R + c + 32 ∧ ∃ m ≤ 32 + (k + 1), pos' = R + c + m) := by
  by_cases hs : sync = .noNeedSync
  · rw [if_pos hs]
    exact ⟨pos, s, rfl, Calm.refl s, fun _ => rfl, fun _ _ => rfl, fun h => absurd hs h⟩
  rw [if_neg hs]
  obtain ⟨rfl, m, hm, rfl⟩ := hpos hs
  obtain ⟨t, s', h, hcalm⟩ := writeSkip_runs E b (R + c + 32) (R + c + 32 - (R + c + m)) (R + c + m) s
  obtain ⟨hd, h1, h2⟩ := writeSkip_dev h
  refine ⟨t, s', h, hcalm, fun h => absurd h hs, ?_, fun _ => ⟨rfl, t - (R + c), by omega, by omega⟩⟩
  intro i hi
  refine hd.disk _ ?_
  rintro ⟨x, hx1, hx2, he⟩
  obtain ⟨y, rfl⟩ : ∃ y, x = R + (c + y) := ⟨x - (R + c), by omega⟩
  have := addr_inj (by omega) (by omega) he
  omega

theorem loadTable_scan (hk : ∀ t, E.kmalloc t = true) (sync : TableSync) (c limit : ℕ)
    (hc : c + 1000 ≤ maxReservedSector) (hsep : c + 1000 ≤ a ∨ a + 1000 ≤ c) :
    ∀ (n k pos : ℕ) {s : World}, k + n ≤ 32 →
    (sync ≠ .noNeedSync → limit = R + c + 32 ∧ ∃ m ≤ 32 + k, pos = R + c + m) →
    (∀ i < 32, bad (a + i) = false → ∀ t ∈ entriesOf (area s.disk R a i), Loadable E s.geom t) →
    (∀ t ∈ tableEnd bad s.disk R a n k, t.secSize ≠ 128) →
    ∃ s', (loadTable E sync limit n (R + (a + k)) pos).run s = some (true, s') ∧
      Loads (fun t d => sync = .noNeedSync → d = blockAt s.disk t) (scan 8 (seen bad s.disk R a) n k) s s' ∧
      (sync = .noNeedSync → s'.disk = s.disk) := by
  intro n
  induction n with
  | zero => intro k pos s _ _ _ _; exact ⟨s, rfl, (Calm.refl s).loads, fun _ => rfl⟩
  | succ n ih =>
    intro k pos s hkn hpos hload hend
    obtain ⟨buf, s₁, h1, hc1, hd1, hbuf⟩ := readFaults_run (s := s) hE (show a + k < maxReservedSector by omega)
    have hl1 : Loads (fun t d => sync = .noNeedSync → d = blockAt s.disk t) [] s s₁ := hc1.loads
    have hg1 : s₁.geom = s.geom := hl1.geom
    unfold loadTable scan
    unfold tableEnd at hend
    rw [run_bind_of h1]
    dsimp only
    cases hb : bad (a + k) with
    | true =>
      rw [hb, if_pos rfl] at hend
      obtain ⟨s', h2, hl2, hd2⟩ := ih (k + 1) pos (s := s₁) (by omega)
        (fun h => by obtain ⟨e, m, hm, e'⟩ := hpos h; exact ⟨e, m, by omega, e'⟩)
        (by rw [hg1, hd1]; exact hload) (by rw [hd1]; exact hend)
      refine ⟨s', ?_, ?_, fun h => (hd2 h).trans hd1⟩
      · rw [if_neg (by simp)]; exact h2
      · rw [show seen bad s.disk R a k = none by unfold seen; rw [hb]; rfl]
        rw [hd1] at hl2
        exact hl1.trans hl2
    | false =>
      have hs : seen bad s.disk R a k = some (entriesOf (area s.disk R a k)) := by unfold seen; rw [hb]; rfl
      rw [hb, if_neg (by simp)] at hend
      obtain ⟨r, s₂, h2, hr, hd2, hl2, hiff⟩ :=
        loadSlots_scan (s := s₁) hk (List.finRange 8) (hg1 ▸ hload k (by omega) hb)
        fun t ht => hend t (Option.or_eq_some_iff.2 (Or.inl ht))
      rw [List.length_finRange] at hiff
      have hfull : r = .loaded ↔ (entriesOf (area s.disk R a k)).length = 8 := hiff
      have hl12 := hl1.trans (hl2.mono fun t d (h : d = blockAt s₁.disk t) _ => by rw [h, hd1])
      have hg2 : s₂.geom = s.geom := hl12.geom
      obtain ⟨pos', s₃, h3, hc3, hd3, harea, hpos'⟩ :=
        syncWrite_runs (E := E) (R := R) ha (b := area s.disk R a k) s₂ (show k < 32 by omega) hc hsep hpos
      have hl3 := hl12.trans (hc3.loads (Q := fun t d => sync = .noNeedSync → d = blockAt s.disk t))
      have hg3 : s₃.geom = s.geom := hl3.geom
      have hd : sync = .noNeedSync → s₃.disk = s.disk := fun h => (hd3 h).trans (hd2.trans hd1)
      rw [List.nil_append, List.append_nil] at hl3
      -- the read and the eight slots
      have hrun : ∀ f : SlotRes × Sector → SwapM Bool,
          (loadSlots E (List.finRange 8) ((buf 0).getD zeroSector) >>= f).run s₁ =
          (f (r, area s.disk R a k)).run s₂ := by
        intro f
        rw [hbuf hb, Option.getD_some]
        exact run_bind_of h2
      rw [hs, if_pos (show (!false) = true from rfl), hrun]
      dsimp only
      rw [if_neg hr, run_bind_of h3]
      cases r with
      | error => exact absurd rfl hr
      | stop =>
        have hlt : (entriesOf (area s.disk R a k)).length < 8 := by
          have h8 := entriesOf_length_le (area s.disk R a k)
          have hne : (entriesOf (area s.disk R a k)).length ≠ 8 := fun he => by simpa using hfull.2 he
          omega
        rw [if_pos hlt]
        exact ⟨s₃, rfl, hl3, hd⟩
      | loaded =>
        have hlen : ¬ (entriesOf (area s.disk R a k)).length < 8 := by rw [hfull.1 rfl]; omega
        rw [if_neg (show ¬ SlotRes.loaded = SlotRes.stop by simp), if_neg hlen]
        obtain ⟨s', h4, hl4, hd4⟩ := ih (k + 1) pos' (s := s₃) (by omega) hpos' (by
          intro i hi hbi
          rw [hg3, harea i hi, hd2, hd1]
          exact hload i hi hbi) (by
          intro t ht
          have hcongr : tableEnd bad s₃.disk R a n (k + 1) = tableEnd bad s.disk R a n (k + 1) :=
            tableEnd_congr fun i h1 h2 => by rw [harea i (by omega), hd2, hd1]
          rw [hcongr] at ht
          rw [(endOf_eq_none _).2 (hfull.1 rfl), Option.none_or] at hend
          exact hend t ht)
        have hseen : scan 8 (seen bad s₃.disk R a) n (k + 1) = scan 8 (seen bad s.disk R a) n (k + 1) := by
          refine scan_congr fun i h1 h2 => ?_
          unfold seen
          rw [harea i (by omega), hd2, hd1]
        rw [hseen] at hl4
        refine ⟨s', h4, hl3.trans (hl4.mono fun t d h hsync => ?_), fun h => (hd4 h).trans (hd h)⟩
        rw [h hsync, hd hsync]

end

/-- Every entry that can be read in one of the table areas can be loaded. -/
def AllLoadable (E : Env) (R : ℕ) (bad : ℕ → Bool) (s : World) : Prop :=
  ∀ a, a = swapTableOffset ∨ a = swapTableBackupOffset → ∀ i < 32, bad (a + i) = false → ∀ j,
    (tableSlots (area s.disk R a i) j).valid = true → Loadable E s.geom (tableSlots (area s.disk R a i) j)

theorem AllLoadable.front (h : AllLoadable E R bad s) {a : ℕ}
    (ha : a = swapTableOffset ∨ a = swapTableBackupOffset) {i : ℕ} (hi : i < 32) (hb : bad (a + i) = false) :
    ∀ t ∈ entriesOf (area s.disk R a i), Loadable E s.geom t := by
  intro t ht
  obtain ⟨j, -, rfl⟩ := List.mem_map.1 ((List.takeWhile_sublist _).subset ht)
  exact h a ha i hi hb j (List.mem_takeWhile_imp ht)

/-- `init_swap_info` counts the entries of both copies, and takes the one with more of them. -/
theorem initSwapInfo_run {R : ℕ} (hE : E.ReadFaults R bad)
    (ht : s.core.sectorTable = R + swapTableOffset) (hr : s.core.sectorReserveStart = R)
    {m b : List SwapTable} (hmdef : m = scan 8 (seen bad s.disk R swapTableOffset) 32 0)
    (hbdef : b = scan 8 (seen bad s.disk R swapTableBackupOffset) 32 0) :
    ∃ s₂, Calm { s with core := { s.core with infoList := [], infoNum := 0 } } s₂ ∧ s₂.disk = s.disk ∧
      (initSwapInfo E).run s = (if b.length > m.length then
          loadTable E .masterNeedSync (R + swapTableOffset + 32) 32 (R + (swapTableBackupOffset + 0))
            (R + swapTableOffset)
        else if b.length < m.length then
          loadTable E .backupNeedSync (R + swapTableBackupOffset + 32) 32 (R + (swapTableOffset + 0))
            (R + swapTableBackupOffset)
        else if m.length = 0 then pure true
        else loadTable E .noNeedSync 0 32 (R + (swapTableOffset + 0)) 0 : SwapM Bool).run s₂ := by
  set s₀ : World := { s with core := { s.core with infoList := [], infoNum := 0 } } with hs₀
  have hmo : swapTableOffset + 1000 ≤ maxReservedSector := by decide
  have hbo : swapTableBackupOffset + 1000 ≤ maxReservedSector := by decide
  obtain ⟨s₁, h1, hc1, hd1⟩ := calcSwapInfoNum_scan hE hmo (s := s₀) (k := 0) (n := 32) 0 (by omega)
  obtain ⟨s₂, h2, hc2, hd2⟩ := calcSwapInfoNum_scan hE hbo (s := s₁) (k := 0) (n := 32) 0 (by omega)
  rw [hd1, show s₀.disk = s.disk from rfl, ← hbdef, Nat.zero_add, Nat.add_zero] at h2
  rw [show s₀.disk = s.disk from rfl, ← hmdef, Nat.zero_add, Nat.add_zero] at h1
  have h1' : (calcSwapInfoNum E 32 s.core.sectorTable 0).run s₀ = some (m.length, s₁) := by rw [ht]; exact h1
  have h2' : (calcSwapInfoNum E 32 (s.core.sectorReserveStart + swapTableBackupOffset) 0).run s₁ =
      some (b.length, s₂) := by rw [hr]; exact h2
  refine ⟨s₂, hc1.trans hc2, hd2.trans hd1, ?_⟩
  unfold initSwapInfo
  rw [run_modify_bind, run_get_bind]
  dsimp only
  change StateT.run _ s₀ = _
  rw [run_bind_of h1', run_bind_of h2', ht, hr]
  rfl

/-- **What `init_swap_info` loads**: the copy with more entries, the master if both have as many. It does as
long as the entries of this copy do not end with something that looks like one. -/
theorem initSwapInfo_loads {R : ℕ} (hE : E.ReadFaults R bad) (hk : ∀ t, E.kmalloc t = true)
    (ht : s.core.sectorTable = R + swapTableOffset) (hr : s.core.sectorReserveStart = R)
    (hload : ∀ a, a = swapTableOffset ∨ a = swapTableBackupOffset → ∀ i < 32, bad (a + i) = false →
      ∀ t ∈ entriesOf (area s.disk R a i), Loadable E s.geom t)
    {m b : List SwapTable} (hmdef : m = scan 8 (seen bad s.disk R swapTableOffset) 32 0)
    (hbdef : b = scan 8 (seen bad s.disk R swapTableBackupOffset) 32 0)
    (hend : m = [] ∧ b = [] ∨ ∀ t ∈ tableEnd bad s.disk R (if m.length < b.length then swapTableBackupOffset
      else swapTableOffset) 32 0, t.secSize ≠ 128) :
    ∃ s', (initSwapInfo E).run s = some (true, s') ∧
      Loads (fun t d => m.length = b.length → d = blockAt s.disk t) (if m.length < b.length then b else m)
        { s with core := { s.core with infoList := [], infoNum := 0 } } s' ∧
      (m.length = b.length → s'.disk = s.disk) := by
  have hmo : swapTableOffset + 1000 ≤ maxReservedSector := by decide
  have hbo : swapTableBackupOffset + 1000 ≤ maxReservedSector := by decide
  have hsep : swapTableOffset + 1000 ≤ swapTableBackupOffset := by decide
  obtain ⟨s₂, hc, hd, hrun⟩ := initSwapInfo_run hE ht hr hmdef hbdef
  have hl : ∀ Q, Loads Q [] _ s₂ := fun Q => hc.loads
  have hg : s₂.geom = s.geom := (hl fun _ _ => True).geom
  have hload₂ : ∀ a, a = swapTableOffset ∨ a = swapTableBackupOffset → ∀ i < 32, bad (a + i) = false →
      ∀ t ∈ entriesOf (area s₂.disk R a i), Loadable E s₂.geom t := by
    rw [hg, hd]
    exact hload
  rw [← hd] at hend
  rw [hrun]
  rcases Nat.lt_trichotomy m.length b.length with hlt | heq | hgt
  · have hend' := hend.resolve_left fun h => by rw [h.1, h.2] at hlt; exact absurd hlt (lt_irrefl _)
    rw [if_pos hlt] at hend'
    obtain ⟨s', h3, hl3, -⟩ := loadTable_scan hE hbo hk .masterNeedSync swapTableOffset
      (R + swapTableOffset + 32) hmo
      (Or.inl hsep) 32 0 (R + swapTableOffset) (by omega) (fun _ => ⟨rfl, 0, by omega, rfl⟩)
        (hload₂ _ (Or.inr rfl)) hend'
    rw [if_pos hlt, if_pos hlt]
    rw [hd, ← hbdef] at hl3
    exact ⟨s', h3, (hl _).trans (hl3.mono fun t d _ he => absurd he (by omega)), fun he => absurd he (by omega)⟩
  · rw [if_neg (show ¬ b.length > m.length by omega), if_neg (show ¬ b.length < m.length by omega),
      if_neg (show ¬ m.length < b.length by omega)]
    by_cases h0 : m.length = 0
    · rw [if_pos h0, List.eq_nil_of_length_eq_zero h0]
      exact ⟨s₂, rfl, hl _, fun _ => hd⟩
    · have hend' := hend.resolve_left fun h => h0 (by rw [h.1]; rfl)
      rw [if_neg (show ¬ m.length < b.length by omega)] at hend'
      obtain ⟨s', h3, hl3, hd3⟩ := loadTable_scan hE hmo hk .noNeedSync swapTableBackupOffset 0 hbo
        (Or.inr hsep) 32 0 0 (by omega) (fun h => absurd rfl h) (hload₂ _ (Or.inl rfl)) hend'
      rw [if_neg h0]
      rw [hd, ← hmdef] at hl3
      exact ⟨s', h3, (hl _).trans (hl3.mono fun t d h _ => h rfl), fun _ => (hd3 rfl).trans hd⟩
  · have hend' := hend.resolve_left fun h => by rw [h.1, h.2] at hgt; exact absurd hgt (lt_irrefl _)
    rw [if_neg (show ¬ m.length < b.length by omega)] at hend'
    obtain ⟨s', h3, hl3, -⟩ := loadTable_scan hE hmo hk .backupNeedSync swapTableBackupOffset
      (R + swapTableBackupOffset + 32) hbo (Or.inr hsep) 32 0 (R + swapTableBackupOffset) (by omega)
      (fun _ => ⟨rfl, 0, by omega, rfl⟩) (hload₂ _ (Or.inl rfl)) hend'
    rw [if_neg (by omega), if_pos hgt, if_neg (by omega)]
    rw [hd, ← hmdef] at hl3
    exact ⟨s', h3, (hl _).trans (hl3.mono fun t d _ he => absurd he (by omega)), fun he => absurd he (by omega)⟩

/-- In particular if nothing in the areas looks like an entry and is not one. -/
theorem initSwapInfo_scan {R : ℕ} (hE : E.ReadFaults R bad) (hk : ∀ t, E.kmalloc t = true)
    (ht : s.core.sectorTable = R + swapTableOffset) (hr : s.core.sectorReserveStart = R)
    (hm : ∀ i < 32, bad (swapTableOffset + i) = false → Packed E s.geom (area s.disk R swapTableOffset i))
    (hb : ∀ i < 32, bad (swapTableBackupOffset + i) = false →
    Packed E s.geom (area s.disk R swapTableBackupOffset i))
    {m b : List SwapTable} (hmdef : m = scan 8 (seen bad s.disk R swapTableOffset) 32 0)
    (hbdef : b = scan 8 (seen bad s.disk R swapTableBackupOffset) 32 0) :
    ∃ s', (initSwapInfo E).run s = some (true, s') ∧
      Loads (fun t d => m.length = b.length → d = blockAt s.disk t) (if m.length < b.length then b else m)
        { s with core := { s.core with infoList := [], infoNum := 0 } } s' ∧
      (m.length = b.length → s'.disk = s.disk) := by
  have hpacked : ∀ a, a = swapTableOffset ∨ a = swapTableBackupOffset → ∀ i < 32, bad (a + i) = false →
      Packed E s.geom (area s.disk R a i) := by
    rintro a (rfl | rfl)
    · exact hm
    · exact hb
  have hload : AllLoadable E R bad s := by
    intro a ha i hi hbad j hv
    have hp := hpacked a ha i hi hbad
    exact hp j ((hp.valid_iff j).1 hv)
  refine initSwapInfo_loads hE hk ht hr (fun a ha i hi hbad => hload.front ha hi hbad) hmdef hbdef (Or.inr ?_)
  refine tableEnd_of_packed (by omega) (hpacked _ ?_)
  split
  · exact Or.inr rfl
  · exact Or.inl rfl

end load

end ScsiSwap
